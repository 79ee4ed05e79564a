import AgentFleet.Broadcast.Pool

namespace AgentFleet
open AgentFleet.Action

/-- How the agents are contacted: one at a time, or up to `workers` at once. -/
inductive Delivery
  | sequential
  | parallel (workers : Nat) (positive : 0 < workers)
  deriving DecidableEq, Repr

def Delivery.parallel? (workers : Int) : Except Fault Delivery :=
  if h : 0 < workers.toNat then .ok (.parallel workers.toNat h)
  else .error (.of (.misuse .noWorkers))

def undelivered (a : Agent) (f : Fault) : Fault :=
  f.because (.notDelivered a f.message)

namespace Sequential

/-- Send to agents in order until one fails: the links that were opened, and the failure. -/
def sendEach (c : Connector) (m : Message) : List Agent → Action (List Link × Option Fault)
  | [] => return ([], none)
  | a :: rest => do
    match ← (c.connect a).attempt with
    | .error f => return ([], some (undelivered a f))
    | .ok link =>
      match ← (link.send m).attempt with
      | .error f => return ([link], some (undelivered a f))
      | .ok _ =>
        let (links, failure) ← sendEach c m rest
        return (link :: links, failure)

/-- Close links in order. One that does not close keeps the others from nothing. -/
def closeEach : List Link → Action Unit
  | [] => return
  | l :: rest => do
    match ← l.close.attempt with
    | .ok () => pure ()
    | .error f =>
      warn ("Failed to close connection to " ++ l.agent.publicAddress ++ ": " ++ f.message)
    closeEach rest

/-- All links stay open until every agent is done with. -/
def deliver (c : Connector) (m : Message) (agents : List Agent) : Action Nat := do
  let (links, failure) ← sendEach c m agents
  closeEach links
  match failure with
  | some f => throw f
  | none => return agents.length

end Sequential

namespace Parallel

/-- The number of deliveries, unless there was a failure; the first agent's counts. -/
def verdict : List (Agent × Except Fault Bool) → Except Fault Nat
  | [] => .ok 0
  | (_, .ok sent) :: rest => (verdict rest).map fun n => if sent then n + 1 else n
  | (a, .error f) :: _ => .error (undelivered a f)

/-- Contact agents by the errands of a pool. They are taken from the front; what other orders lead
to is a matter of `Pool.move?`. -/
def deliver (k : Contact σ κ) (workers : Nat) (agents : List Agent) : EStateM Fault σ Nat := do
  let pool := (Pool.start agents (← get)).settle k workers
  set pool.world
  ofExcept (verdict pool.results)

end Parallel

def Delivery.deliver : Delivery → Connector → Message → List Agent → Action Nat
  | sequential, c, m => Sequential.deliver c m
  | parallel workers _, c, m => Parallel.deliver (c.contact m) workers

/-- Send a message to all agents; tell how many have taken it. -/
def broadcast (c : Connector) (d : Delivery) (m : Message) : Action Nat := do
  let roster := (← get).roster
  if roster.agents = [] then
    warn ("No agents registered in " ++ roster.path ++ ". Nothing to send.")
    return 0
  info ("Sending message " ++ m.type ++ " to " ++ Text.ofNat roster.agents.length ++ " agent(s)")
  let delivered ← d.deliver c m roster.agents
  info "Message sent!"
  return delivered

end AgentFleet
