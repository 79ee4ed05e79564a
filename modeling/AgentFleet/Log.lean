import AgentFleet.Text.Basic

namespace AgentFleet

inductive Severity
  | info
  | warning
  | error
  deriving DecidableEq, Repr

inductive LogLevel
  | notset
  | debug
  | info
  | warning
  | error
  | critical
  deriving DecidableEq, Repr

def Severity.number : Severity → Nat
  | info => 20
  | warning => 30
  | error => 40

def Severity.name : Severity → String
  | info => "INFO"
  | warning => "WARNING"
  | error => "ERROR"

namespace LogLevel

def number : LogLevel → Nat
  | notset => 0
  | debug => 10
  | info => 20
  | warning => 30
  | error => 40
  | critical => 50

def all : List (Text × LogLevel) := [
  ("notset", notset), ("debug", debug), ("info", info), ("warning", warning), ("error", error),
  ("critical", critical)]

/-- A level that is not set is that of warnings. -/
def admits (l : LogLevel) (s : Severity) : Bool :=
  (if l = notset then warning else l).number ≤ s.number

end LogLevel

end AgentFleet
