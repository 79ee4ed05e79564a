import AgentFleet.Link

namespace AgentFleet

/-- How agents are dealt with: a link is opened, used and closed. -/
structure Contact (σ κ : Type) where
  connect : Agent → EStateM Fault σ κ
  use : κ → EStateM Fault σ Unit
  close : κ → EStateM Fault σ Unit

/-- To hand a message over. -/
def Connector.contact (c : Connector) (m : Message) : Contact Situation Link where
  connect := c.connect
  use l := do let _ ← l.send m
  close := Link.close

/-- How far an errand has come. -/
inductive Stage (κ : Type)
  | queued
  | started
  /-- It has seen that nobody has failed. -/
  | cleared
  | linked (link : κ)
  /-- It has used the link, perhaps with a failure, and has still to close it. -/
  | used (link : κ) (failure : Option Fault)
  /-- It has failed, and has still to make that known. -/
  | failing (f : Fault)
  /-- The agent was dealt with, or was skipped, or there was a failure. -/
  | ended (result : Except Fault Bool)

namespace Stage

def isQueued : Stage κ → Bool
  | queued => true
  | _ => false

def isOver : Stage κ → Bool
  | ended _ => true
  | _ => false

/-- It takes up a worker. -/
def isUnderWay (stage : Stage κ) : Bool :=
  !stage.isQueued && !stage.isOver

/-- The most steps that are left. -/
def left : Stage κ → Nat
  | queued => 6
  | started => 5
  | cleared => 4
  | linked _ => 3
  | used .. => 2
  | failing _ => 1
  | ended _ => 0

def result? : Stage κ → Option (Except Fault Bool)
  | ended result => some result
  | _ => none

end Stage

/-- What an errand does in one step. -/
inductive Act
  | start
  /-- To look whether anybody has failed. -/
  | look (failed : Bool)
  | connect (failure : Option Fault)
  | use (failure : Option Fault)
  | close (failure : Option Fault)
  /-- To make known that it has failed. -/
  | report (f : Fault)
  deriving DecidableEq, Repr

structure Errand (κ : Type) where
  agent : Agent
  stage : Stage κ

/-- Errands in the order of the agents, and the world in which they are run. -/
structure Pool (σ κ : Type) where
  errands : List (Errand κ)
  /-- It is known that an errand has failed. -/
  failed : Bool
  world : σ

namespace Pool

def start (agents : List Agent) (world : σ) : Pool σ κ :=
  ⟨agents.map (⟨·, .queued⟩), false, world⟩

/-- The pool after a step of the errand at a place. -/
def put (p : Pool σ κ) (place : Nat) (agent : Agent) (stage : Stage κ) (world : σ) : Pool σ κ :=
  { p with errands := p.errands.set place ⟨agent, stage⟩, world }

/-- Those before it have started, and a worker is free. -/
def mayStart (p : Pool σ κ) (workers place : Nat) : Bool :=
  (p.errands.take place).all (!·.stage.isQueued) &&
    p.errands.countP (·.stage.isUnderWay) < workers

/-- The next step of the errand at a place, if it can take one. -/
def move? (k : Contact σ κ) (workers : Nat) (p : Pool σ κ) (place : Nat) :
    Option (Act × Pool σ κ) :=
  match p.errands[place]? with
  | none | some ⟨_, .ended _⟩ => none
  | some ⟨a, .queued⟩ =>
    if p.mayStart workers place then some (.start, p.put place a .started p.world) else none
  | some ⟨a, .started⟩ =>
    some (.look p.failed, p.put place a (if p.failed then .ended (.ok false) else .cleared) p.world)
  | some ⟨a, .cleared⟩ =>
    match k.connect a p.world with
    | .ok link world => some (.connect none, p.put place a (.linked link) world)
    | .error f world => some (.connect (some f), p.put place a (.failing f) world)
  | some ⟨a, .linked link⟩ =>
    match k.use link p.world with
    | .ok () world => some (.use none, p.put place a (.used link none) world)
    | .error f world => some (.use (some f), p.put place a (.used link (some f)) world)
  | some ⟨a, .used link failure⟩ =>
    match k.close link p.world, failure with
    | .ok () world, none => some (.close none, p.put place a (.ended (.ok true)) world)
    | .ok () world, some f => some (.close none, p.put place a (.failing f) world)
    | .error f world, _ => some (.close (some f), p.put place a (.failing f) world)
  | some ⟨a, .failing f⟩ =>
    some (.report f, { p.put place a (.ended (.error f)) p.world with failed := true })

def isOver (p : Pool σ κ) : Bool :=
  p.errands.all (·.stage.isOver)

/-- The first errand that is not over. -/
def front (p : Pool σ κ) : Nat :=
  p.errands.findIdx (!·.stage.isOver)

/-- Up to so many steps, each of the errand that is at the front. -/
def advance (k : Contact σ κ) (workers : Nat) : (steps : Nat) → Pool σ κ → Pool σ κ
  | 0, p => p
  | n + 1, p =>
    match p.move? k workers p.front with
    | some (_, q) => advance k workers n q
    | none => p

def left (p : Pool σ κ) : Nat :=
  p.errands.foldr (fun e n => e.stage.left + n) 0

/-- The pool once its errands are over, when all steps are taken at the front. -/
def settle (k : Contact σ κ) (workers : Nat) (p : Pool σ κ) : Pool σ κ :=
  p.advance k workers p.left

/-- What has come of the errands that are over. -/
def results (p : Pool σ κ) : List (Agent × Except Fault Bool) :=
  p.errands.filterMap fun e => e.stage.result?.map (e.agent, ·)

end Pool

end AgentFleet
