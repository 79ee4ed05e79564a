import AgentFleet.Entries
import AgentFleet.Fault

namespace AgentFleet

/-- A value from a file is a text; others may also be numbers or flags, or absent. -/
inductive Setting
  | text (t : Text)
  | whole (n : Int)
  | real (x : Decimal.Double)
  | flag (b : Bool)
  | absent
  deriving DecidableEq, Repr

namespace Setting

def shown : Setting → Text
  | .text t => t
  | .whole n => Text.ofInt n
  | .real x => (Decimal.Number.real x).text
  | .flag true => "True"
  | .flag false => "False"
  | .absent => "None"

/-- Neither absent nor empty nor zero nor false. -/
def isGiven : Setting → Bool
  | .text t => t ≠ []
  | .whole n => n ≠ 0
  | .real x => !x.isZero
  | .flag b => b
  | .absent => false

/-- The setting, absent unless it is given. -/
def given (s : Setting) : Setting :=
  if s.isGiven then s else .absent

def toWhole : Setting → Except Fault Int
  | .text t => (Text.readInteger t).mapError fun f => .of (.misuse (.badNumeral f))
  | .whole n => .ok n
  | .real .nan => .error (.of (.misuse .notANumber))
  | .real x => x.whole?.elim (.error (.of .infinite)) .ok
  | .flag b => .ok b.toInt
  | .absent => .error (.of (.notNumeric "NoneType"))

/-- The setting as a path; `none` when it is not given. -/
def toPath? (s : Setting) : Except Fault (Option Text) :=
  if !s.isGiven then .ok none
  else match s with
    | .text path => .ok (some path)
    | _ => .error (.of .notPath)

end Setting

namespace Default

def settingsFile : Text := "fleet.properties"
def agentsFile : Text := "agents.txt"
def balancerFile : Text := "aws-elb.txt"
def connectTimeout : Int := 30
def controlCommand : Text := "agent-control"
def user : Text := "ubuntu"
def instanceType : Text := "m1.small"
def credentialsFile : Text := "awscredentials.properties"
def keyName : Text := "simulator"
def region : Text := "us-east-1"
def portIn : Int := 0
def portOut : Int := 0
def protocol : Text := "tcp"
def zones : Text := "us-east-1a"
def pollInterval : Int := 30
def pollAttempts : Int := 12
def securityGroup : Text := "simulator"
def subnet : Text := ""

/-- Every key that is read, with its default. -/
def settings : List (Text × Setting) := [
  ("AGENT_CONNECT_TIMEOUT", .whole connectTimeout),
  ("AGENT_CONTROL_COMMAND", .text controlCommand),
  ("AGENT_IDENTITY_FILE", .text ""),
  ("AGENT_SSH_CONFIG_FILE", .text ""),
  ("AGENT_SSH_USER", .text user),
  ("AWS_AMI", .absent),
  ("AWS_BOXID", .text instanceType),
  ("AWS_CREDENTIALS", .text credentialsFile),
  ("AWS_KEY_NAME", .text keyName),
  ("AWS_REGION", .text region),
  ("ELB_PORT_IN", .whole portIn),
  ("ELB_PORT_OUT", .whole portOut),
  ("ELB_PROTOCOL", .text protocol),
  ("ELB_ZONES", .text zones),
  ("POLL_INTERVAL_SECONDS", .whole pollInterval),
  ("POLL_MAX_ATTEMPTS", .whole pollAttempts),
  ("SECURITY_GROUP", .text securityGroup),
  ("SUBNET_ID", .text subnet)]

end Default

/-- Settings that were made, by key, and the file that they are from. -/
structure Settings where
  path : Option Text
  entries : List (Text × Setting)
  deriving DecidableEq, Repr

namespace Settings

def has (s : Settings) (key : Text) : Bool :=
  (s.entries.lookup key).isSome

/-- The value that was set, else `fallback`, else the key's own default. -/
def get (s : Settings) (key : Text) (fallback : Setting) : Setting :=
  match s.entries.lookup key, fallback with
  | some v, _ => v
  | none, .absent => (Default.settings.lookup key).getD .absent
  | none, v => v

def value (s : Settings) (key : Text) : Setting :=
  s.get key .absent

def required (s : Settings) (key : Text) : Except Fault Setting :=
  let v := s.value key
  if v = .absent ∨ v = .text [] then .error (.of (.configuration (.notSet key))) else .ok v

def wholeOr (s : Settings) (key : Text) (fallback : Setting) : Except Fault Int :=
  let v := s.get key fallback
  v.toWhole.mapError fun f =>
    if f.trouble = .infinite then f else f.because (.configuration (.notWhole key v.shown))

def whole (s : Settings) (key : Text) : Except Fault Int :=
  s.wholeOr key .absent

/-- The values between commas, without blanks around them and without empty ones. -/
def list (s : Settings) (key : Text) : List Text :=
  let v := s.value key
  let text := if v.isGiven then v.shown else []
  ((fields (.char ',') text).map Text.strip).filter (· ≠ [])

end Settings

end AgentFleet
