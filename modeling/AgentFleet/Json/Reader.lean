import AgentFleet.Entries
import AgentFleet.Json.Value
import AgentFleet.Text.Numeral

namespace AgentFleet.Json
open Decimal
open Text (Point)

inductive Container
  | array
  | object
  deriving DecidableEq, Repr

def Container.word : Container → String
  | array => "array"
  | object => "object"

inductive Problem
  | value
  | name
  | colon
  | comma
  | unterminated
  | control
  | escape
  | unicodeEscape
  | extra
  | byteOrderMark
  | longNumeral (digits : Nat)
  | tooDeep (container : Container)
  deriving DecidableEq, Repr

/-- A place is given by the count of characters from it to the end. -/
structure Failure where
  problem : Problem
  left : Nat
  deriving DecidableEq, Repr

def Problem.words : Problem → Text
  | .value => "Expecting value"
  | .name => "Expecting property name enclosed in double quotes"
  | .colon => "Expecting ':' delimiter"
  | .comma => "Expecting ',' delimiter"
  | .unterminated => "Unterminated string starting at"
  | .control => "Invalid control character at"
  | .escape => "Invalid \\escape"
  | .unicodeEscape => "Invalid \\uXXXX escape"
  | .extra => "Extra data"
  | .byteOrderMark => "Unexpected UTF-8 BOM (decode using utf-8-sig)"
  | .longNumeral digits => (Text.NumeralFault.tooLong digits).message
  | .tooDeep c => "maximum recursion depth exceeded while decoding a JSON " ++ c.word ++
      " from a unicode string"

/-- Line and column of the place `index` characters into the text, both from 1. -/
def lineAndColumn (text : Text) (index : Nat) : Nat × Nat :=
  let before := text.take index
  (before.count (.char '\n') + 1, (before.reverse.takeWhile (· ≠ .char '\n')).length + 1)

def Failure.message (f : Failure) (text : Text) : Text :=
  match f.problem with
  | .longNumeral _ | .tooDeep _ => f.problem.words
  | p =>
    let index := text.length - f.left
    let (line, column) := lineAndColumn text index
    p.words ++ ": line " ++ Text.ofNat line ++ " column " ++ Text.ofNat column ++
      " (char " ++ Text.ofNat index ++ ")"

/-- A result and what follows it. -/
abbrev Rest (α : Type) := α × Text

def fail (p : Problem) (rest : Text) : Except Failure α :=
  .error ⟨p, rest.length⟩

def isSpace (p : Point) : Bool :=
  p = .char ' ' || p = .char '\t' || p = .char '\n' || p = .char '\r'

def skip (s : Text) : Text :=
  s.dropWhile isSpace

/-- A piece of a string: a character as it is written, or a unit of sixteen bits from an escape. -/
inductive Piece
  | point (p : Point)
  | unit (n : Nat)

def hexValue? (p : Point) : Option Nat :=
  let n := p.code
  if 0x30 ≤ n ∧ n ≤ 0x39 then some (n - 0x30)
  else if 0x61 ≤ n ∧ n ≤ 0x66 then some (n - 0x57)
  else if 0x41 ≤ n ∧ n ≤ 0x46 then some (n - 0x37)
  else none

def hexUnit? (a b c d : Point) : Option Nat := do
  return ((← hexValue? a) * 16 + (← hexValue? b)) * 256 + (← hexValue? c) * 16 + (← hexValue? d)

/-- What a character after a backslash stands for. -/
def simpleEscapes : List (Point × Point) := [
  (.char '"', .char '"'), (.char '\\', .char '\\'), (.char '/', .char '/'),
  (.char 'b', .char '\x08'), (.char 'f', .char '\x0c'), (.char 'n', .char '\n'),
  (.char 'r', .char '\r'), (.char 't', .char '\t')]

/-- The pieces up to the closing quote. `start` is the place of the opening one. -/
def pieces (start : Nat) : Text → Except Failure (Rest (List Piece))
  | [] => .error ⟨.unterminated, start⟩
  | .char '"' :: r => .ok ([], r)
  | .char '\\' :: .char 'u' :: a :: b :: c :: d :: r =>
    match r, hexUnit? a b c d with
    | _ :: _, some n => do
      let (ps, rest) ← pieces start r
      return (.unit n :: ps, rest)
    | _, _ => fail .unicodeEscape (.char 'u' :: a :: b :: c :: d :: r)
  | .char '\\' :: .char 'u' :: r => fail .unicodeEscape (.char 'u' :: r)
  | .char '\\' :: p :: r =>
    match simpleEscapes.lookup p with
    | some e => do
      let (ps, rest) ← pieces start r
      return (.point e :: ps, rest)
    | none => fail .escape (.char '\\' :: p :: r)
  | [.char '\\'] => .error ⟨.unterminated, start⟩
  | p :: r =>
    if p.code < 0x20 then fail .control (p :: r)
    else do
      let (ps, rest) ← pieces start r
      return (.point p :: ps, rest)

/-- A unit by itself is a character, or half of a pair. -/
def unitPoint (n : Nat) : Point :=
  if h : 0xD800 ≤ n ∧ n < 0xE000 then .half ⟨n - 0xD800, by omega⟩ else .char (Char.ofNat n)

/-- An escaped high half and an escaped low half after it make one character. -/
def joined : List Piece → Text
  | [] => []
  | .unit a :: .unit b :: ps =>
    if 0xD800 ≤ a ∧ a < 0xDC00 ∧ 0xDC00 ≤ b ∧ b < 0xE000 then
      .char (Char.ofNat (0x10000 + (a - 0xD800) * 0x400 + (b - 0xDC00))) :: joined ps
    else unitPoint a :: joined (.unit b :: ps)
  | .unit a :: ps => unitPoint a :: joined ps
  | .point p :: ps => p :: joined ps

/-- The rest of a string after its opening quote. -/
def readText (r : Text) : Except Failure (Rest Text) := do
  let (ps, rest) ← pieces (r.length + 1) r
  return (joined ps, rest)

def isDecimal (p : Point) : Bool :=
  0x30 ≤ p.code && p.code ≤ 0x39

def decimalRun (s : Text) : List Nat × Text :=
  ((s.takeWhile isDecimal).map (·.code - 0x30), s.dropWhile isDecimal)

/-- The whole part: a zero alone, or digits that start with none. -/
def readWhole? : Text → Option (List Nat × Text)
  | .char '0' :: r => some ([0], r)
  | s => match decimalRun s with
    | ([], _) => none
    | run => some run

def readFraction? : Text → Option (List Nat × Text)
  | .char '.' :: s => match decimalRun s with
    | ([], _) => none
    | run => some run
  | _ => none

def readExponent? : Text → Option (Int × Text)
  | .char 'e' :: s | .char 'E' :: s =>
    let (negative, s) := Text.sign s
    match decimalRun s with
    | ([], _) => none
    | (ds, rest) => some (if negative then -(Text.ofDigits ds : Int) else Text.ofDigits ds, rest)
  | _ => none

/-- A number; with a fraction or an exponent it is a floating-point number. -/
def readNumber (s : Text) : Except Failure (Rest Number) :=
  let (negative, body) := match s with
    | .char '-' :: r => (true, r)
    | r => (false, r)
  match readWhole? body with
  | none => fail .value s
  | some (ds, rest) =>
    match readFraction? rest, readExponent? rest with
    | none, none =>
      if ds.length > Text.digitLimit then fail (.longNumeral ds.length) s
      else
        let n : Int := Text.ofDigits ds
        .ok (.whole (if negative then -n else n), rest)
    | none, some (e, rest) => .ok (.real (.ofDecimal negative (Text.ofDigits ds) e), rest)
    | some (fs, rest), _ =>
      let (e, rest) := (readExponent? rest).getD (0, rest)
      .ok (.real (.ofDecimal negative (Text.ofDigits (ds ++ fs)) (e - fs.length)), rest)

/-- What comes after `word`, when the text starts with it. -/
def after? : (word : Text) → Text → Option Text
  | [], s => some s
  | _ :: _, [] => none
  | a :: w, b :: s => if a = b then after? w s else none

/-- The words that stand for a value. -/
def namedValues : List (Text × Value) := [
  ("null", .null),
  ("true", .bool true),
  ("false", .bool false),
  ("NaN", .number (.real .nan)),
  ("Infinity", .number (.real (.infinite false))),
  ("-Infinity", .number (.real (.infinite true)))]

def readScalar (s : Text) : Except Failure (Rest Value) :=
  match namedValues.findSome? fun (w, v) => (after? w s).map (v, ·) with
  | some read => .ok read
  | none => (readNumber s).map fun (x, rest) => (.number x, rest)

/-- How deep arrays and objects may stand within one another. -/
def depthLimit : Nat := 990

mutual

/-- One value, in which `room` arrays and objects may stand within one another. `fuel` bounds the
calls within one another; a character leads to two at most. -/
def readValue : (fuel room : Nat) → Text → Except Failure (Rest Value)
  | 0, _, s => fail .value s
  | k + 1, room, s =>
    match s, room with
    | .char '"' :: r, _ => (readText r).map fun (t, rest) => (.text t, rest)
    | .char '[' :: _, 0 => fail (.tooDeep .array) s
    | .char '{' :: _, 0 => fail (.tooDeep .object) s
    | .char '[' :: r, room + 1 =>
      match skip r with
      | .char ']' :: rest => .ok (.array [], rest)
      | r => (readItems k room r).map fun (vs, rest) => (.array vs, rest)
    | .char '{' :: r, room + 1 =>
      match skip r with
      | .char '}' :: rest => .ok (.object [], rest)
      | r => (readMembers k room [] r).map fun (ms, rest) => (.object ms, rest)
    | s, _ => readScalar s

/-- The items of an array from its first on. -/
def readItems : (fuel room : Nat) → Text → Except Failure (Rest (List Value))
  | 0, _, s => fail .value s
  | k + 1, room, s => do
    let (v, r) ← readValue k room s
    match skip r with
    | .char ']' :: rest => return ([v], rest)
    | .char ',' :: r =>
      let (vs, rest) ← readItems k room (skip r)
      return (v :: vs, rest)
    | r => fail .comma r

/-- The members of an object after those in `done`; of two with one name the later is kept. -/
def readMembers : (fuel room : Nat) → (done : List (Text × Value)) → Text →
    Except Failure (Rest (List (Text × Value)))
  | 0, _, _, s => fail .value s
  | k + 1, room, done, s =>
    match s with
    | .char '"' :: r => do
      let (name, r) ← readText r
      match skip r with
      | .char ':' :: r =>
        let (v, r) ← readValue k room (skip r)
        match skip r with
        | .char '}' :: rest => return (setEntry done name v, rest)
        | .char ',' :: r => readMembers k room (setEntry done name v) (skip r)
        | r => fail .comma r
      | r => fail .colon r
    | s => fail .name s

end

def readDocument (s : Text) : Except Failure Value := do
  if s.head? = some (.char '\uFEFF') then fail .byteOrderMark s
  let (v, r) ← readValue (2 * s.length + 2) depthLimit (skip s)
  match skip r with
  | [] => return v
  | r => fail .extra r

/-- The document that a text is, or why it is none. -/
def parse (text : Text) : Except Text Value :=
  (readDocument text).mapError (·.message text)

end AgentFleet.Json
