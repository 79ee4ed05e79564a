import AgentFleet.Cloud.Provider

namespace AgentFleet
open AgentFleet.Action Cloud

/-- Live instances by their addresses. -/
abbrev Found := List (Text × Instance)

/-- Of several live instances with one address, the last is found there. -/
def Found.add (found : Found) (i : Instance) : Found :=
  match i.liveAddress? with
  | some address => setEntry found address i
  | none => found

def Found.ofList (instances : List Instance) : Found :=
  instances.foldl .add []

/-- The instances of agents. Without agents nobody is asked. -/
def findInstances (c : Provider) (agents : List Agent) : Action Found := do
  if agents = [] then return []
  return .ofList (← c.describeInstances none (some (agents.map (·.publicAddress))))

/-- The id of the instance of each agent that has one; `missing` is done for each that has none. -/
def idsOf (found : Found) (missing : Agent → Action Unit) : List Agent → Action (List Text)
  | [] => return []
  | a :: rest => do
    match found.lookup a.publicAddress with
    | some i => return i.id :: (← idsOf found missing rest)
    | none =>
      missing a
      idsOf found missing rest

end AgentFleet
