import AgentFleet.Settings.File
import AgentFleet.Action

namespace AgentFleet.Cloud
open AgentFleet.Action

def accessKeyName : Text := "accessKey"
def secretKeyName : Text := "secretKey"

/-- Both keys must be there, and neither may be empty. -/
def Credentials.ofEntries (path : Text) (entries : List (Text × Text)) :
    Except Fault Credentials :=
  match [accessKeyName, secretKeyName].filter fun k => (present? (entries.lookup k)).isNone with
  | [] => .ok ⟨(entries.lookup accessKeyName).getD [], (entries.lookup secretKeyName).getD []⟩
  | lacking => .error (.of (.credentials (.lacking path lacking)))

def Credentials.load (disk : Disk.Store) (path : Text) : Except Fault Credentials :=
  match Settings.entriesIn disk path with
  | .ok entries => Credentials.ofEntries path entries
  | .error f =>
    .error (if f.trouble.isConfiguration then f.because (.credentials (.notLoaded path)) else f)

/-- A library that makes no clients for the keys leaves the fleet without credentials. -/
def noClients (f : Fault) : Option Trouble :=
  match f.trouble with
  | .foreign .cloudLibrary _ text => some (.credentials (.noClients text))
  | _ => none

/-- Reach AWS with the credentials that the settings name. -/
def connect (s : Settings) : Action Unit := do
  let disk := (← get).disk
  let credentials ← ofExcept (Credentials.load disk (disk.expand (s.value "AWS_CREDENTIALS").shown))
  (openSession credentials (s.value "AWS_REGION")).explain noClients

end AgentFleet.Cloud
