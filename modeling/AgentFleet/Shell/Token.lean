import AgentFleet.Text.Basic

namespace AgentFleet.Shell
open Text (Point)

/-- A word without its quotes. What an expansion would put in place of a part of it is not looked
into: the word is marked. -/
structure Word where
  text : Text
  expands : Bool
  deriving DecidableEq, Repr

inductive Token
  | word (w : Word)
  /-- An operator of several characters comes in several tokens. -/
  | operator (p : Point)
  deriving DecidableEq, Repr

/-- In the midst of what the next character stands. -/
inductive Mode
  | outside
  | escape
  | single
  | double
  | doubleEscape
  | comment
  deriving DecidableEq, Repr

/-- How far a command is read: the word that has begun, and what came before it. -/
structure Reader where
  mode : Mode
  word : Option Word
  tokens : List Token
  deriving DecidableEq, Repr

def isOperator (p : Point) : Bool :=
  (Text.ofString "\n|&;<>()").contains p

/-- These start an expansion between double quotes, too. -/
def isSubstitution (p : Point) : Bool :=
  p = .char '$' || p = .char '`'

/-- A tilde counts wherever it stands. -/
def isExpansion (p : Point) : Bool :=
  isSubstitution p || (Text.ofString "*?[~").contains p

/-- Characters that lose their meaning after a backslash between double quotes. -/
def isDoubleEscapable (p : Point) : Bool :=
  isSubstitution p || p = .char '"' || p = .char '\\'

namespace Reader

def start : Reader :=
  ⟨.outside, none, []⟩

/-- The word that has begun, or begins here. -/
def begun (r : Reader) : Word :=
  r.word.getD ⟨[], false⟩

/-- The character means itself. -/
def literal (r : Reader) (p : Point) : Reader :=
  { r with word := some { r.begun with text := r.begun.text ++ [p] } }

def expansion (r : Reader) (p : Point) : Reader :=
  { r with word := some ⟨r.begun.text ++ [p], true⟩ }

/-- A quote begins a word, even if nothing follows. -/
def quote (r : Reader) (mode : Mode) : Reader :=
  { r with mode, word := some r.begun }

/-- The word that has begun is over. -/
def parted (r : Reader) : Reader :=
  { r with word := none, tokens := r.tokens ++ (r.word.map .word).toList }

def operator (r : Reader) (p : Point) : Reader :=
  { r.parted with mode := .outside, tokens := r.parted.tokens ++ [.operator p] }

def step (r : Reader) (p : Point) : Reader :=
  match r.mode with
  | .outside =>
    if p = .char '\\' then { r with mode := .escape }
    else if p = .char '\'' then r.quote .single
    else if p = .char '"' then r.quote .double
    else if p = .char ' ' || p = .char '\t' then r.parted
    else if isOperator p then r.operator p
    else if p = .char '#' && r.word.isNone then { r with mode := .comment }
    else if isExpansion p then r.expansion p
    else r.literal p
  | .escape =>
    if p = .char '\n' then { r with mode := .outside }
    else { r.literal p with mode := .outside }
  | .single =>
    if p = .char '\'' then { r with mode := .outside }
    else r.literal p
  | .double =>
    if p = .char '"' then { r with mode := .outside }
    else if p = .char '\\' then { r with mode := .doubleEscape }
    else if isSubstitution p then r.expansion p
    else r.literal p
  | .doubleEscape =>
    if p = .char '\n' then { r with mode := .double }
    else if isDoubleEscapable p then { r.literal p with mode := .double }
    else { (r.literal (.char '\\')).literal p with mode := .double }
  | .comment =>
    if p = .char '\n' then r.operator p
    else r

def read (r : Reader) (t : Text) : Reader :=
  t.foldl step r

/-- What was read, unless it ends within quotes or after a backslash. -/
def finish (r : Reader) : Option (List Token) :=
  if r.mode = .outside ∨ r.mode = .comment then some r.parted.tokens else none

end Reader

def tokens? (command : Text) : Option (List Token) :=
  (Reader.start.read command).finish

end AgentFleet.Shell
