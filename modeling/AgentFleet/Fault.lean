import AgentFleet.Agent
import AgentFleet.Cloud.Rejection
import AgentFleet.Decimal.Number
import AgentFleet.Disk.Store
import AgentFleet.Json.Reader
import AgentFleet.Text.Numeral

namespace AgentFleet
open Decimal

/-- A kind of trouble. The fleet reports trouble of its own kinds itself. -/
inductive Kind
  | unspecified
  | configuration
  | credentials
  | agentsFile
  | save
  | cloudCall
  | notReady
  | cancelled
  | balancer
  | link
  | notDelivered
  | other (name : String)
  deriving DecidableEq, Repr

/-- The kinds of the fleet's own. -/
def Kind.reported : List Kind := [unspecified, configuration, credentials, agentsFile, save,
  cloudCall, notReady, cancelled, balancer, link, notDelivered]

def Kind.name : Kind → String
  | unspecified => "FleetError"
  | configuration => "ConfigurationError"
  | credentials => "CredentialsError"
  | agentsFile => "RegistryLoadError"
  | save => "PersistenceError"
  | cloudCall => "ProviderError"
  | notReady => "ReadinessTimeout"
  | cancelled => "PollingCancelled"
  | balancer => "BalancerProvisionError"
  | link => "AgentCommunicationError"
  | notDelivered => "DispatchError"
  | other name => name

/-- A setting, or a file of settings, is unfit. -/
inductive Misconfiguration
  | noFile (path : Text)
  | unreadableFile (path : Text)
  | badLine (line : Nat) (path text : Text)
  | notSet (key : Text)
  | notWhole (key value : Text)
  | noZones
  deriving DecidableEq, Repr

inductive CredentialsTrouble
  | notLoaded (path : Text)
  | lacking (path : Text) (keys : List Text)
  | noClients (reason : Text)
  deriving DecidableEq, Repr

inductive LinkTrouble
  | notConnected (address reason : Text)
  | notReached (address reason : Text)
  | notAccepted (address message : Text) (exitCode : Int) (output : Text)
  deriving DecidableEq, Repr

/-- A value that an operation does not take. -/
inductive Misuse
  | badLine (fault : Agent.LineFault)
  | negativeCount (n : Int)
  | unknownStrategy (name : Text)
  | negativeTarget (n : Int)
  | negativeInterval
  | noAttempts
  | noWorkers
  | nothingToDescribe
  | pathNotText
  | badNumeral (fault : Text.NumeralFault)
  | notANumber
  /-- A number with more digits than are written. -/
  | tooManyDigits
  deriving DecidableEq, Repr

/-- The kinds of outside failure that are told apart. -/
inductive Family
  | system
  | secureShell
  | cloudLibrary
  | other
  deriving DecidableEq, Repr

/-- A failure of outside code: its family, the name of its kind, and its text. -/
structure Foreign where
  family : Family
  name : String
  text : Text
  deriving DecidableEq, Repr

/-- What went wrong in one place. -/
inductive Trouble
  /-- In the words of whoever reports it. -/
  | stated (kind : Kind) (text : Text)
  | configuration (what : Misconfiguration)
  | credentials (what : CredentialsTrouble)
  | agentsFile (path reason : Text) (line : Option Nat)
  | notSaved (target reason : Text)
  | cloudCall (operation reason : Text)
  | notReady (id : Text) (attempts bound : Number)
  | cancelled (id : Text)
  | noBalancer (name : Text)
  | link (what : LinkTrouble)
  | notDelivered (agent : Agent) (reason : Text)
  | misuse (what : Misuse)
  | notText
  | notNumeric (kind : Text)
  | notPath
  /-- A text on a command line is unfit for its place. -/
  | unfit (why : Text)
  | tooDeep (container : Json.Container)
  /-- A whole number is beyond all floating-point numbers. -/
  | tooLarge
  /-- No whole number is as large. -/
  | infinite
  | waitTooLong
  | missingKey (key : Text)
  | disk (fault : Disk.Fault)
  | rejected (rejection : Cloud.Rejection)
  | noReply (method : Text)
  | foreign (family : Family) (name : String) (text : Text)
  deriving DecidableEq, Repr

def Misconfiguration.message : Misconfiguration → Text
  | .noFile path => "Properties file " ++ path ++ " does not exist"
  | .unreadableFile path => "Unable to read properties file " ++ path
  | .badLine line path text =>
    "Invalid property on line " ++ Text.ofNat line ++ " of " ++ path ++ ": '" ++ text ++ "'"
  | .notSet key => "Property " ++ key ++ " is required but not set"
  | .notWhole key value => "Property " ++ key ++ " must be an integer, got '" ++ value ++ "'"
  | .noZones => "ELB_ZONES must name at least one availability zone"

def CredentialsTrouble.message : CredentialsTrouble → Text
  | .notLoaded path => "Credentials file " ++ path ++ " could not be loaded"
  | .lacking path keys => "Credentials file " ++ path ++ " is missing " ++ Text.join ", " keys
  | .noClients reason => "Unable to create provider clients: " ++ reason

def LinkTrouble.message : LinkTrouble → Text
  | .notConnected address reason => "Unable to connect to agent " ++ address ++ ": " ++ reason
  | .notReached address reason => "Unable to reach agent " ++ address ++ ": " ++ reason
  | .notAccepted address message exitCode output =>
    "Agent " ++ address ++ " rejected message " ++ message ++
      " (exit code " ++ Text.ofInt exitCode ++ "): " ++ output

def Misuse.message : Misuse → Text
  | .badLine fault => fault.message
  | .negativeCount n => "count must not be negative, got " ++ Text.ofInt n
  | .unknownStrategy name => "Unsupported selection strategy " ++ name
  | .negativeTarget n => "target must not be negative, got " ++ Text.ofInt n
  | .negativeInterval => "interval must not be negative"
  | .noAttempts => "max_attempts must be at least 1"
  | .noWorkers => "max_workers must be at least 1"
  | .nothingToDescribe => "describe_instances needs instance ids or public addresses"
  | .pathNotText => "path to file must be a string"
  | .badNumeral fault => fault.message
  | .notANumber => "cannot convert float NaN to integer"
  | .tooManyDigits => Text.overLimit []

namespace Trouble

def agentsFileText (path reason : Text) : (line : Option Text) → Text
  | none => "Unable to load agents file " ++ path ++ ": " ++ reason
  | some line => "Unable to load agents file " ++ path ++ " (line " ++ line ++ "): " ++ reason

def cloudCallText (operation reason : Text) : Text :=
  "Provider call " ++ operation ++ " failed: " ++ reason

def notReadyText (id attempts bound : Text) : Text :=
  "Timeout waiting for running status id=" ++ id ++ " after " ++ attempts ++ " attempts (" ++
    bound ++ " seconds)"

def cancelledText (id : Text) : Text :=
  "Polling cancelled for id=" ++ id

def notDeliveredText (address reason : Text) : Text :=
  "Could not send message to agent " ++ address ++ ": " ++ reason

def message : Trouble → Text
  | .stated _ text => text
  | .configuration what => what.message
  | .credentials what => what.message
  | .agentsFile path reason line => agentsFileText path reason (line.map Text.ofNat)
  | .notSaved target reason => "Unable to write agents file " ++ target ++ ": " ++ reason
  | .cloudCall operation reason => cloudCallText operation reason
  | .notReady id attempts bound => notReadyText id attempts.text bound.text
  | .cancelled id => cancelledText id
  | .noBalancer name => "Could not create load balancer " ++ name
  | .link what => what.message
  | .notDelivered agent reason => notDeliveredText agent.publicAddress reason
  | .misuse what => what.message
  | .notText => "the bytes are not UTF-8"
  | .notNumeric kind =>
    "int() argument must be a string, a bytes-like object or a real number, not '" ++ kind ++ "'"
  | .notPath => "a path must be a text"
  | .unfit why => why
  | .tooDeep c => (Json.Problem.tooDeep c).words
  | .tooLarge => "int too large to convert to float"
  | .infinite => "cannot convert float infinity to integer"
  | .waitTooLong => "timestamp too large to convert to C _PyTime_t"
  | .missingKey key => Text.quoted key
  | .disk fault => fault.message
  | .rejected rejection => rejection.text
  | .noReply method => method
  | .foreign _ _ text => text

def kind : Trouble → Kind
  | .stated kind _ => kind
  | .configuration _ => .configuration
  | .credentials _ => .credentials
  | .agentsFile .. => .agentsFile
  | .notSaved .. => .save
  | .cloudCall .. => .cloudCall
  | .notReady .. => .notReady
  | .cancelled _ => .cancelled
  | .noBalancer _ => .balancer
  | .link _ => .link
  | .notDelivered .. => .notDelivered
  | .misuse _ => .other "ValueError"
  | .notText => .other "UnicodeDecodeError"
  | .notNumeric _ | .notPath => .other "TypeError"
  | .unfit _ => .other "ArgumentTypeError"
  | .tooDeep _ => .other "RecursionError"
  | .tooLarge | .infinite | .waitTooLong => .other "OverflowError"
  | .missingKey _ => .other "KeyError"
  | .disk fault => .other fault.name
  | .rejected _ => .other "ClientError"
  | .noReply _ => .other "NoReply"
  | .foreign _ name _ => .other name

/-- The name of the kind stands in for a text that is empty. -/
def name (t : Trouble) : String :=
  t.kind.name

/-- A command answers the troubles that the fleet reports itself with an exit status. -/
def isReported (t : Trouble) : Bool :=
  t.kind ∈ Kind.reported

def isConfiguration (t : Trouble) : Bool :=
  t.kind = .configuration || t.kind = .credentials

/-- Troubles of the system: files, and connections on its lowest level. -/
def isSystem : Trouble → Bool
  | .disk fault => fault.isSystem
  | .foreign .system _ _ => true
  | _ => false

def isConnection : Trouble → Bool
  | .foreign .secureShell _ _ => true
  | t => t.isSystem

/-- Troubles of the library that carries the cloud's calls. -/
def isCloud : Trouble → Bool
  | .rejected _ | .foreign .cloudLibrary _ _ => true
  | _ => false

end Trouble

def Foreign.trouble (f : Foreign) : Trouble :=
  .foreign f.family f.name f.text

/-- A trouble and those that it came from, the innermost last. -/
structure Fault where
  trouble : Trouble
  causes : List Trouble
  deriving DecidableEq, Repr

namespace Fault

def of (t : Trouble) : Fault :=
  ⟨t, []⟩

/-- The trouble that a fault has led to. -/
def because (f : Fault) (t : Trouble) : Fault :=
  ⟨t, f.trouble :: f.causes⟩

def message (f : Fault) : Text :=
  f.trouble.message

def shown (t : Trouble) : Text :=
  if t.message = [] then t.name else t.message

/-- The whole chain, outermost first. -/
def describe (f : Fault) : Text :=
  Text.join " <- " ((f.trouble :: f.causes).map shown)

end Fault

end AgentFleet
