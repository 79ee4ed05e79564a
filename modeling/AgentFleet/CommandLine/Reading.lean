import AgentFleet.Command
import AgentFleet.CommandLine.Step
import AgentFleet.CommandLine.Value

namespace AgentFleet.CommandLine

/-- A command line that is not carried out: help was asked for, the line is refused, or reading it
went wrong. -/
inductive Exit
  | help
  | usage (program : Text) (problem : Problem)
  | failed (fault : Fault)
  deriving DecidableEq, Repr

def Exit.code : Exit → Nat
  | help => 0
  | usage .. => 2
  | failed _ => 1

/-- What is reported of a command line that is not carried out. -/
def Exit.report? : Exit → Option Text
  | help => none
  | usage program problem => some (program ++ ": error: " ++ problem.message)
  | failed fault => some (fault.trouble.name ++ ": " ++ fault.message)

def programName : Text := "run.py"

def commandNames : List Text := ["scale", "balance", "broadcast", "list"]

def global : Grammar :=
  ⟨programName, [.help, .settings, .agentsFile, .level], .everything "command"⟩

/-- What one command takes. -/
def grammarOf (command : Text) (flags : List Flag) (positional : Positional) : Grammar :=
  ⟨programName ++ " " ++ command, .help :: flags, positional⟩

def Grammar.refuse (g : Grammar) (p : Problem) : Except Exit α :=
  .error (.usage g.program p)

/-- A value, or the refusal of what stands for it if that is unfit. -/
def Grammar.accept (g : Grammar) (title : Text) : Except Fault α → Except Exit α
  | .ok a => .ok a
  | .error f =>
    match f.trouble with
    | .unfit why => g.refuse (.badValue title why)
    | _ => .error (.failed f)

/-- What steps say when each is taken in turn. -/
def Grammar.follow (g : Grammar) (take : σ → Step → Except Exit σ) : σ → List Step → Except Exit σ
  | s, [] => .ok s
  | _, .broken p :: _ => g.refuse p
  | _, .flag .help _ :: _ => .error .help
  | s, step :: rest =>
    match take s step with
    | .ok s => g.follow take s rest
    | .error e => .error e

/-- What was read, with the tokens that nothing has taken. -/
structure Reading (α : Type) where
  result : α
  extras : List Text

def Reading.add (r : Reading α) (token : Text) : Reading α :=
  { r with extras := r.extras ++ [token] }

def takeOne (g : Grammar) (title : Text) (convert : Text → Except Fault α)
    (r : Reading (Option α)) : Step → Except Exit (Reading (Option α))
  | .positional (v :: _) => (g.accept title (convert v)).map fun a => { r with result := some a }
  | .extra token => .ok (r.add token)
  | _ => .ok r

/-- Read the arguments of a command that takes one value and no flags of its own. -/
def readOne (command title : Text) (convert : Text → Except Fault α)
    (arguments : List Text) : Except Exit (Reading α) := do
  let g := grammarOf command [] (.value title)
  let r ← g.follow (takeOne g title convert) ⟨none, []⟩ (g.steps arguments)
  match r.result with
  | some a => return ⟨a, r.extras⟩
  | none => g.refuse (.lacking title)

structure BroadcastDraft where
  type : Option Text
  payload : Json.Value
  delivery : Given Delivery

def takeBroadcast (g : Grammar) (r : Reading BroadcastDraft) :
    Step → Except Exit (Reading BroadcastDraft)
  | .positional (v :: _) => .ok { r with result.type := some v }
  | .flag .payload (some v) =>
    (g.accept Flag.payload.title (payload v)).map fun j => { r with result.payload := j }
  | .flag .payload none => .ok { r with result.payload := .array [] }
  | .flag .workers (some v) =>
    (g.accept Flag.workers.title (workers v)).map fun d => { r with result.delivery := .value d }
  | .flag .workers none => .ok { r with result.delivery := .nothing }
  | .extra token => .ok (r.add token)
  | _ => .ok r

def readBroadcast (arguments : List Text) : Except Exit (Reading Command) := do
  let title := "message_type"
  let g := grammarOf "broadcast" [.payload, .workers] (.value title)
  let r ← g.follow (takeBroadcast g) ⟨⟨none, .null, .value .sequential⟩, []⟩ (g.steps arguments)
  match r.result.type with
  | some t => return ⟨.broadcast ⟨t, r.result.payload⟩ r.result.delivery, r.extras⟩
  | none => g.refuse (.lacking title)

def takeNothing (r : Reading α) : Step → Except Exit (Reading α)
  | .extra token => .ok (r.add token)
  | _ => .ok r

def readList (arguments : List Text) : Except Exit (Reading Command) :=
  let g := grammarOf "list" [] .nothing
  g.follow takeNothing ⟨.list, []⟩ (g.steps arguments)

def unknownCommand (name : Text) : Text :=
  "invalid choice: " ++ Text.quoted name ++ " (choose from " ++
    Text.join ", " (commandNames.map Text.quoted) ++ ")"

def readCommand : List Text → Except Exit (Reading Command)
  | [] => global.refuse (.badValue "command" (unknownCommand []))
  | name :: arguments =>
    if name = "scale" then
      (readOne "scale" "count" agentCount arguments).map fun r => ⟨.scale r.result, r.extras⟩
    else if name = "balance" then
      (readOne "balance" "name" .ok arguments).map fun r => ⟨.balance r.result, r.extras⟩
    else if name = "broadcast" then readBroadcast arguments
    else if name = "list" then readList arguments
    else global.refuse (.badValue "command" (unknownCommand name))

structure Draft where
  settingsFile : Option (Given Text)
  agentsFile : Given Text
  level : LogLevel
  command : Option (Reading Command)
  extras : List Text

def Draft.take (d : Draft) : Step → Except Exit Draft
  | .positional arguments =>
    (readCommand arguments).map fun r => { d with command := some r }
  | .flag .settings v => .ok { d with settingsFile := some (.ofOption v) }
  | .flag .agentsFile v => .ok { d with agentsFile := .ofOption v }
  | .flag .level none => .ok { d with level := .info }
  | .flag .level (some v) =>
    (global.accept Flag.level.title (logLevel v)).map fun l => { d with level := l }
  | .extra token => .ok { d with extras := d.extras ++ [token] }
  | _ => .ok d

/-- The invocation that a command line spells. -/
def read (arguments : List Text) : Except Exit Invocation := do
  let d ← global.follow Draft.take ⟨none, .value Default.agentsFile, .info, none, []⟩
    (global.steps arguments)
  match d.command with
  | none => global.refuse (.lacking "command")
  | some r =>
    if d.extras ++ r.extras = [] then
      return ⟨d.settingsFile, d.agentsFile, d.level, r.result⟩
    else global.refuse (.unrecognized (d.extras ++ r.extras))

end AgentFleet.CommandLine
