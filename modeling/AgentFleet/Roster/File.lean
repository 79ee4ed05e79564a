import AgentFleet.Settings.File
import AgentFleet.Action

namespace AgentFleet
open AgentFleet.Action

namespace Roster

/-- Blank lines and comments hold no agent. -/
def isSignificant (line : Text) : Bool :=
  match Text.strip line with
  | [] => false
  | p :: _ => p ≠ .char '#'

/-- The agents of numbered lines. -/
def agentsOf (path : Text) : List (Nat × Text) → Except Fault (List Agent)
  | [] => .ok []
  | (n, line) :: rest =>
    if isSignificant line then
      match Agent.ofLine (Text.strip line) with
      | .ok a => (agentsOf path rest).map (a :: ·)
      | .error f => .error (.of (.agentsFile path f.message (some n)))
    else agentsOf path rest

def parse (path : Text) (text : Text) : Except Fault Roster :=
  (agentsOf path (Text.numbered (Text.lines text))).map (ofList path)

/-- The roster of a file. A file that is missing may stand for a roster without agents. -/
def read (disk : Disk.Store) (path : Text) (mustExist : Bool) : Except Fault Roster :=
  let opened := disk.expand path
  if !disk.hasPath opened then
    if mustExist then .error (.of (.agentsFile path "file does not exist" none)) else .ok ⟨path, []⟩
  else (parseFile disk opened (parse path)).mapError fun f =>
    if f.trouble.isSystem then f.because (.agentsFile path f.message none) else f

def load (path : Text) (mustExist : Bool) : Action Unit := do
  let roster ← ofExcept (read (← get).disk path mustExist)
  modify fun s => { s with roster }

/-- Write agents to a file in place of what it holds. -/
def write (path : Text) (agents : List Agent) : Action Unit := fun s =>
  let target := s.disk.target path
  match s.disk.replace target (agentLines agents) with
  | (.ok (), disk) => .ok () { s with disk }
  | (.error f, disk) =>
    let fault := Fault.of (.disk f)
    .error (if f.isSystem then fault.because (.notSaved target.text f.message) else fault)
      { s with disk }

/-- Write the roster to its own file, or to another. -/
def save (path : Option Text) : Action Unit := do
  let r := (← get).roster
  write ((Cloud.present? path).getD r.path) r.agents

/-- Write the agents, then let them be those of the roster. -/
def commit (agents : List Agent) : Action Unit := do
  write (← get).roster.path agents
  modify fun s => { s with roster.agents := agents }

/-- Put an agent at the end, unless it is there already; tell whether it was put. -/
def add (a : Agent) : Action Bool := do
  let agents := (← get).roster.agents
  if a ∈ agents then return false
  commit (agents ++ [a])
  return true

def remove (a : Agent) : Action Bool := do
  let agents := (← get).roster.agents
  if a ∉ agents then return false
  commit (agents.erase a)
  return true

/-- Take up to `count` agents out of the roster, in the order in which they are picked. -/
def take (count : Int) (strategy : Strategy) : Action (List Agent) := do
  if count < 0 then throw (.of (.misuse (.negativeCount count)))
  let agents := (← get).roster.agents
  let n := min count.toNat agents.length
  if n = 0 then return []
  let picked ← ofExcept (strategy.pick n agents)
  commit (agents.filter (· ∉ picked))
  return picked

def removeOldest (count : Int) : Action (List Agent) :=
  take count .oldestFirst

end Roster

end AgentFleet
