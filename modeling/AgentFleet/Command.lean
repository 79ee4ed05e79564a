import AgentFleet.Balancing
import AgentFleet.Broadcast
import AgentFleet.Cloud.Credentials
import AgentFleet.Scaling

namespace AgentFleet
open AgentFleet.Action Cloud

/-- What was given in a place for a value, which may be nothing at all. -/
inductive Given (α : Type)
  | value (a : α)
  | nothing
  deriving DecidableEq, Repr

namespace Given

def ofOption : Option α → Given α
  | some a => value a
  | none => nothing

def getD : Given α → α → α
  | value a, _ => a
  | nothing, fallback => fallback

/-- Nothing is no path. -/
def toPath : Given Text → Except Fault Text
  | value path => .ok path
  | nothing => .error (.of .notPath)

end Given

inductive Command
  | scale (count : Nat)
  | balance (name : Text)
  | broadcast (message : Message) (delivery : Given Delivery)
  | list

/-- A command, and the files and the level of the log that go with it. -/
structure Invocation where
  settingsFile : Option (Given Text)
  agentsFile : Given Text
  level : LogLevel
  command : Command

namespace Command

def name : Command → String
  | scale _ => "scale"
  | balance _ => "balance"
  | broadcast .. => "broadcast"
  | list => "list"

/-- Use AWS, and give its clients back whatever happens. -/
def withCloud (s : Settings) (use : Provider → Action α) : Action α := do
  connect s
  (use .aws).always Provider.aws.shutdown

def runScale (agentsFile : Text) (s : Settings) (count : Nat) : Action Unit := do
  Roster.load agentsFile false
  let result ← withCloud s fun c => scaleBySettings c s count
  info ("Fleet has " ++ counted (← get).roster.agents ++ " agent(s): " ++ counted result.added ++
    " added, " ++ counted result.removed ++ " removed")
  if result.timedOut ≠ [] then
    warn ("Instance(s) " ++ commaSeparated result.timedOut ++
      " did not become ready and must be cleaned up manually")
  if result.unresolved ≠ [] then
    warn ("Agent(s) " ++ commaSeparated (result.unresolved.map (·.line)) ++
      " were removed but no instance was found to terminate")

def runBalance (agentsFile : Text) (s : Settings) (name : Text) : Action Unit := do
  Roster.load agentsFile true
  let ids ← withCloud s fun c => balanceBySettings c s name
  info ("Load balancer " ++ name ++ " serves " ++ counted ids ++ " agent(s)")

def runBroadcast (agentsFile : Text) (s : Settings) (m : Message) (d : Delivery) :
    Action Unit := do
  Roster.load agentsFile true
  info ("Loaded agents file: " ++ (← get).roster.path)
  let connector ← ofExcept (Connector.ofSettings (← get).configuration (← get).disk s)
  let _ ← AgentFleet.broadcast connector d m

def runList (agentsFile : Text) : Action Unit := do
  Roster.load agentsFile true
  let roster := (← get).roster
  roster.agents.forM fun a => print a.line
  info (counted roster.agents ++ " agent(s) registered in " ++ roster.path)

end Command

namespace Invocation

/-- Carry a command out. Only scaling waits, and only waiting is stopped by a signal. -/
def perform (i : Invocation) : Action Unit := do
  let settingsFile ← ofExcept (i.settingsFile.mapM Given.toPath)
  let settings ← ofExcept (Settings.load (← get).disk settingsFile [])
  let agentsFile ← ofExcept i.agentsFile.toPath
  match i.command with
  | .scale count => hearing (Command.runScale agentsFile settings count)
  | .balance name => Command.runBalance agentsFile settings name
  | .broadcast m d => Command.runBroadcast agentsFile settings m (d.getD .sequential)
  | .list => Command.runList agentsFile

/-- Carry a command out; its exit code tells whether it failed. -/
def run (i : Invocation) : Action Nat := do
  modify fun s => { s with level := i.level }
  match ← i.perform.attempt with
  | .ok () => return 0
  | .error f =>
    if f.trouble.isReported then
      log .error (.ok ("Command " ++ i.command.name ++ " failed: " ++ f.describe))
      return 1
    else throw f

end Invocation

end AgentFleet
