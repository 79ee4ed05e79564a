import AgentFleet.Text.Basic

namespace AgentFleet.Cloud

/-- A request was answered with an error. Its code and its message may be missing; the text is how
the library words it. -/
structure Rejection where
  code : Option Text
  message : Option Text
  text : Text
  deriving DecidableEq, Repr

/-- The code and the message; without a message, the whole text. -/
def Rejection.reason (r : Rejection) : Text :=
  r.code.getD "Unknown" ++ ": " ++ r.message.getD r.text

end AgentFleet.Cloud
