import AgentFleet.Json.Printer
import AgentFleet.Shell.Word

namespace AgentFleet

/-- A control message: its payload is understood by the agents alone. -/
structure Message where
  type : Text
  payload : Json.Value

namespace Message

def value (m : Message) : Json.Value :=
  .record [("type", .text m.type), ("payload", m.payload)]

def toJson (m : Message) : Text :=
  m.value.print

/-- What runs on an agent: the control command, with the message as its only argument. -/
def command (control : Text) (m : Message) : Text :=
  control ++ " " ++ Shell.word m.toJson

end Message

end AgentFleet
