import AgentFleet.Fields
import AgentFleet.Text.Blank

namespace AgentFleet

/-- An agent is known by two addresses. A line of the agents file holds both, the public one first,
with a comma between. -/
structure Agent where
  publicAddress : Text
  privateAddress : Text
  deriving DecidableEq, Repr

namespace Agent

inductive LineFault
  | notTwoFields (line : Text)
  | noPublicAddress (line : Text)
  | noPrivateAddress (line : Text)
  deriving DecidableEq, Repr

def LineFault.message : LineFault → Text
  | .notTwoFields line => "expected '<public address>,<private address>', got '" ++ line ++ "'"
  | .noPublicAddress line => "missing public address in '" ++ line ++ "'"
  | .noPrivateAddress line => "missing private address in '" ++ line ++ "'"

def line (a : Agent) : Text :=
  a.publicAddress ++ "," ++ a.privateAddress

/-- The agent of a line. Blanks around an address do not belong to it. -/
def ofLine (line : Text) : Except LineFault Agent :=
  match (fields (.char ',') line).map Text.strip with
  | [outer, inner] =>
    if outer.isEmpty then .error (.noPublicAddress line)
    else if inner.isEmpty then .error (.noPrivateAddress line)
    else .ok ⟨outer, inner⟩
  | _ => .error (.notTwoFields line)

end Agent

/-- Agents written one to a line. -/
def agentLines (agents : List Agent) : Text :=
  agents.flatMap fun a => a.line ++ "\n"

end AgentFleet
