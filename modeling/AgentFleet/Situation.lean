import AgentFleet.Cloud.Operation
import AgentFleet.Link.Configuration
import AgentFleet.Log
import AgentFleet.Roster

namespace AgentFleet

/-- What a command on a host leaves behind. -/
structure Outcome where
  exitCode : Int
  output : Text
  errors : Text
  deriving DecidableEq, Repr

/-- How a host behaves, each time alike. -/
structure Host where
  opening : Except Fault Unit
  running : Except Fault Outcome
  closing : Except Fault Unit

/-- A host with which nothing goes wrong. -/
def Host.sound : Host :=
  ⟨.ok (), .ok ⟨0, "", ""⟩, .ok ()⟩

/-- Steps of a connection to a host. -/
inductive LinkEvent
  | connected (host : Text) (user timeout : Setting) (keyFile : Option Text)
  | opened (host : Text)
  | ran (host command : Text)
  | closed (host : Text)
  deriving DecidableEq, Repr

/-- A request is remembered with the disk and the roster as they stood when it was made. -/
inductive Event
  | asked (request : Cloud.Service.Request) (disk : Disk.Store) (roster : Roster)
  | sent (request : Cloud.Aws.Request) (disk : Disk.Store) (roster : Roster)
  | session (credentials : Cloud.Credentials) (region : Setting)
  | released (client : Cloud.Aws.Client)
  | waited (seconds : Decimal.Number)
  | link (event : LinkEvent)
  | logged (severity : Severity) (text : Text)
  /-- A text was to be told, and could not be made. -/
  | unlogged (severity : Severity)
  | printed (line : Text)
  deriving DecidableEq, Repr

/-- A wish to stop waiting. It comes with the `dueAt`th wait, or by a signal during a wait; a signal
counts only while it is heard. -/
structure Cancellation where
  isSet : Bool
  waits : Nat
  dueAt : Option Nat
  signalAt : Option (Nat × Int)
  heard : Bool
  /-- The longest wait that there can be, in millionths of a second, unless any wait can be. -/
  limit : Option Nat
  deriving DecidableEq, Repr

/-- So many seconds are longer than the longest wait. -/
def isTooLong (limit : Option Nat) (seconds : Decimal.Number) : Bool :=
  limit.any (seconds.exceeds · 1000000)

namespace Cancellation

/-- Time is counted in billionths of a second, and the count has 63 bits. -/
def countedLimit : Nat := (Nat.pow 2 63 - 1) / 1000

def never : Cancellation :=
  ⟨false, 0, none, none, false, some countedLimit⟩

/-- A wait that is too long does not begin. Where the wish to stop is there already, nothing is
waited for. -/
def refuses (c : Cancellation) (seconds : Decimal.Number) : Bool :=
  !c.isSet && isTooLong c.limit seconds

end Cancellation

/-- The fleet as it stands, and what the cloud, the hosts and the library that connects to them are
going to answer. -/
structure Situation where
  disk : Disk.Store
  roster : Roster
  service : Cloud.Script Cloud.Service.Answer
  aws : Cloud.Script Cloud.Aws.Answer
  sessions : List (Except Fault Unit)
  /-- The client can be released. -/
  releasable : Cloud.Aws.Client → Bool
  hosts : Text → Host
  configuration : Link.Loader
  cancellation : Cancellation
  level : LogLevel
  /-- What was done, the latest first. -/
  history : List Event

namespace Situation

def record (s : Situation) (e : Event) : Situation :=
  { s with history := e :: s.history }

/-- What was done, in order. -/
def events (s : Situation) : List Event :=
  s.history.reverse

end Situation

end AgentFleet
