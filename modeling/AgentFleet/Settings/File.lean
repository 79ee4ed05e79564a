import AgentFleet.Settings
import AgentFleet.Text.Legible
import AgentFleet.Text.Line

namespace AgentFleet

/-- Parse a file. Its lines come before it is known whether all of it is a text, so a fault in one
of them comes first. -/
def parseFile (disk : Disk.Store) (path : Text) (parse : Text → Except Fault α) :
    Except Fault α := do
  match disk.read path with
  | .ok (.text t) => parse t
  | .ok (.bytes b) =>
    let _ ← parse (Text.legible b)
    throw (.of .notText)
  | .error f => throw (.of (.disk f))

namespace Settings

/-- The first place of `c` after the first character, if `c` is not the first character itself. -/
def separator? (c : Char) (line : Text) : Option Nat :=
  match line.idxOf? (.char c) with
  | some (n + 1) => some (n + 1)
  | _ => none

/-- Where a line is divided: at the separator that comes first. -/
def division? (line : Text) : Option Nat :=
  match separator? '=' line, separator? ':' line with
  | some a, some b => some (min a b)
  | some a, none => some a
  | none, b => b

def isComment (line : Text) : Bool :=
  line.head? = some (.char '#') || line.head? = some (.char '!')

/-- The key and the value of a line that has been stripped. -/
def entry? (line : Text) : Option (Text × Text) :=
  (division? line).map fun n => (Text.strip (line.take n), Text.strip (line.drop (n + 1)))

/-- The entries of numbered lines, on top of those in `done`; the last value of a key is kept. -/
def entriesOf (path : Text) (done : List (Text × Text)) :
    List (Nat × Text) → Except Fault (List (Text × Text))
  | [] => .ok done
  | (n, raw) :: rest =>
    let line := Text.strip raw
    if line.isEmpty || isComment line then entriesOf path done rest
    else match entry? line with
      | some (key, value) => entriesOf path (setEntry done key value) rest
      | none => .error (.of (.configuration (.badLine n path line)))

def parse (path : Text) (text : Text) : Except Fault (List (Text × Text)) :=
  entriesOf path [] (Text.numbered (Text.lines text))

/-- The entries of a file. -/
def entriesIn (disk : Disk.Store) (path : Text) : Except Fault (List (Text × Text)) :=
  (parseFile disk (disk.expand path) (parse path)).mapError fun f =>
    if f.trouble.isSystem then f.because (.configuration (.unreadableFile path)) else f

def overlay (entries : List (Text × Setting)) (more : List (Text × Setting)) :
    List (Text × Setting) :=
  more.foldl (fun es (k, v) => setEntry es k v) entries

/-- The settings of a fleet. A file that is named must exist; the default file may be missing. -/
def load (disk : Disk.Store) (path : Option Text) (overrides : List (Text × Setting)) :
    Except Fault Settings := do
  let path ← match path with
    | none => pure (if disk.isFile Default.settingsFile then some Default.settingsFile else none)
    | some p =>
      if disk.isFile (disk.expand p) then pure (some p)
      else throw (.of (.configuration (.noFile p)))
  let entries ← match path with
    | some p => entriesIn disk p
    | none => pure []
  return ⟨path, overlay (entries.map fun (k, v) => (k, .text v)) overrides⟩

end Settings

end AgentFleet
