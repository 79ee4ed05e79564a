import AgentFleet.Action
import AgentFleet.Link.Configuration
import AgentFleet.Message

namespace AgentFleet
open AgentFleet.Action

/-- How agents are reached. -/
structure Connector where
  user : Setting
  keyFile : Option Text
  control : Setting
  timeout : Setting
  deriving DecidableEq, Repr

/-- A connection that is open. -/
structure Link where
  agent : Agent
  control : Setting
  deriving DecidableEq, Repr

def connectionTrouble (t : Text → LinkTrouble) (f : Fault) : Option Trouble :=
  if f.trouble.isConnection then some (.link (t f.message)) else none

namespace Connector

def make (load : Link.Loader) (disk : Disk.Store)
    (configuration user key control timeout : Setting) : Except Fault Connector := do
  configure load disk configuration
  return ⟨user, ← identityFile disk key, control, timeout⟩

def ofSettings (load : Link.Loader) (disk : Disk.Store) (s : Settings) :
    Except Fault Connector := do
  let timeout ← s.whole "AGENT_CONNECT_TIMEOUT"
  make load disk (s.value "AGENT_SSH_CONFIG_FILE").given (s.value "AGENT_SSH_USER").given
    (s.value "AGENT_IDENTITY_FILE").given (s.value "AGENT_CONTROL_COMMAND") (.whole timeout)

end Connector

def closeHost (host : Text) : Action Unit := do
  record (.link (.closed host))
  ofExcept ((← get).hosts host).closing

/-- Open a connection. One that does not open for trouble of its own is closed at once. -/
def Connector.connect (c : Connector) (a : Agent) : Action Link := do
  let host := a.publicAddress
  record (.link (.connected host c.user c.timeout c.keyFile))
  record (.link (.opened host))
  match ((← get).hosts host).opening with
  | .ok () => return ⟨a, c.control⟩
  | .error f =>
    match connectionTrouble (.notConnected host) f with
    | some t =>
      closeHost host
      throw (f.because t)
    | none => throw f

namespace Link

def run (l : Link) (command : Text) : Action Outcome := do
  record (.link (.ran l.agent.publicAddress command))
  ofExcept ((← get).hosts l.agent.publicAddress).running

/-- Hand a message over. The agent takes it by the exit code zero. -/
def send (l : Link) (m : Message) : Action Outcome := do
  let address := l.agent.publicAddress
  let outcome ← (l.run (m.command l.control.shown)).explain
    (connectionTrouble (.notReached address))
  if outcome.exitCode ≠ 0 then
    throw (.of (.link (.notAccepted address m.type outcome.exitCode (Text.strip outcome.errors))))
  return outcome

def close (l : Link) : Action Unit :=
  closeHost l.agent.publicAddress

end Link

/-- Open a link, use it, and close it whatever happens. -/
def Connector.withLink (c : Connector) (a : Agent) (use : Link → Action α) : Action α := do
  let link ← c.connect a
  (use link).always link.close

end AgentFleet
