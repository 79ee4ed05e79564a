import AgentFleet.Broadcast
import AgentFleet.Json.Reader

namespace AgentFleet.CommandLine

def unfit (why : Text) : Except Fault α :=
  .error (.of (.unfit why))

def logLevel (t : Text) : Except Fault LogLevel :=
  match LogLevel.all.lookup (Text.lowerAscii t) with
  | some l => .ok l
  | none =>
    unfit ("Expected one of the following: " ++ Text.join ", " (LogLevel.all.map (·.1)) ++ ".")

def agentCount (t : Text) : Except Fault Nat :=
  match Text.readInteger t with
  | .error _ => unfit ("Expected a whole number of agents, got " ++ t)
  | .ok (.ofNat n) => .ok n
  | .ok n => unfit ("The number of agents can not be negative, got " ++ Text.ofInt n)

/-- A number of workers as a way to deliver. -/
def workers (t : Text) : Except Fault Delivery :=
  match Text.readInteger t with
  | .error _ => unfit ("Expected a whole number of workers, got " ++ t)
  | .ok n => match Delivery.parallel? n with
    | .ok d => .ok d
    | .error _ => unfit ("At least one worker is required, got " ++ Text.ofInt n)

/-- A text that is no document is unfit; a document that is too deep is a fault of its own. -/
def payload (t : Text) : Except Fault Json.Value :=
  match Json.readDocument t with
  | .ok v => .ok v
  | .error ⟨.tooDeep c, _⟩ => .error (.of (.tooDeep c))
  | .error f => unfit ("Invalid JSON payload. Reason: " ++ f.message t)

end AgentFleet.CommandLine
