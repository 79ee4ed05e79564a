import AgentFleet.CommandLine.Flag
import AgentFleet.Text.Digit

namespace AgentFleet.CommandLine

/-- A token of a command line, taken by its form alone. -/
inductive Token
  | value
  /-- Two dashes: all that follows is values. -/
  | separator
  /-- A value is attached after an equals sign, or directly after a short name. -/
  | flag (f : Flag) (isShort : Bool) (attached : Option Text)
  /-- It looks like a flag, and is none. -/
  | unknown
  deriving DecidableEq, Repr

structure Spelling where
  text : Text
  flag : Flag
  deriving DecidableEq, Repr

def Grammar.spellings (g : Grammar) : List Spelling :=
  g.flags.flatMap fun f => f.spellings.map (⟨·, f⟩)

def Grammar.spelled? (g : Grammar) (t : Text) : Option Flag :=
  (g.spellings.find? (·.text = t)).map (·.flag)

def isLong : Text → Bool
  | .char '-' :: .char '-' :: _ => true
  | _ => false

/-- What is before and after the first equals sign. -/
def splitEquals (t : Text) : Option (Text × Text) :=
  match t.dropWhile (· ≠ .char '=') with
  | [] => none
  | _ :: value => some (t.takeWhile (· ≠ .char '='), value)

/-- Digits, perhaps with a point among or before them, after a dash. A line feed may follow. -/
def isNegativeNumber : Text → Bool
  | .char '-' :: r =>
    let ends (t : Text) := t = [] || t = "\n"
    let whole := r.takeWhile Text.isDigit
    match r.dropWhile Text.isDigit with
    | .char '.' :: r => r.takeWhile Text.isDigit ≠ [] && ends (r.dropWhile Text.isDigit)
    | r => whole ≠ [] && ends r
  | _ => false

/-- The spellings that a token may be short for, each with the value that comes with it. -/
def Grammar.candidates (g : Grammar) (t : Text) : List (Spelling × Option Text) :=
  if isLong t then
    match splitEquals t with
    | some (start, value) =>
      (g.spellings.filter fun s => start.isPrefixOf s.text).map (·, some value)
    | none => (g.spellings.filter fun s => t.isPrefixOf s.text).map (·, none)
  else (g.spellings.filter (·.text = t.take 2)).map (·, some (t.drop 2))

/-- A token that has a dash at its front and is no exact spelling. -/
def Grammar.guess (g : Grammar) (t : Text) : Except Problem Token :=
  match g.candidates t with
  | [] => .ok (if isNegativeNumber t || t.contains (.char ' ') then .value else .unknown)
  | [(s, attached)] => .ok (.flag s.flag (!isLong s.text) attached)
  | several => .error (.ambiguous t (several.map fun (s, _) => s.text))

def Grammar.classify (g : Grammar) (t : Text) : Except Problem Token :=
  match t with
  | .char '-' :: _ :: _ =>
    match g.spelled? t, splitEquals t with
    | some f, _ => .ok (.flag f (!isLong t) none)
    | none, none => g.guess t
    | none, some (name, value) =>
      match g.spelled? name with
      | some f => .ok (.flag f (!isLong name) (some value))
      | none => g.guess t
  | _ => .ok .value

/-- Tokens by their forms. After two dashes everything is a value. -/
def Grammar.tokens (g : Grammar) : List Text → Except Problem (List (Token × Text))
  | [] => .ok []
  | t :: rest =>
    if t = "--" then .ok ((.separator, t) :: rest.map (.value, ·))
    else do
      let token ← g.classify t
      return (token, t) :: (← g.tokens rest)

end AgentFleet.CommandLine
