import AgentFleet.Text.Basic

namespace AgentFleet.Text

/-- Only a text without halves can be the content of a file. -/
def isWritable (t : Text) : Bool :=
  t.all fun
    | .char _ => true
    | .half _ => false

/-- The half that shows a byte which is part of no character. -/
def ofByte (b : UInt8) : Point :=
  .half ⟨0x400 + b.toNat, by have := b.toNat_lt; omega⟩

/-- Halves that show bytes are those bytes again; the others are none. -/
def pointBytes? : Point → Option (List UInt8)
  | .char c => some (String.utf8EncodeChar c)
  | .half h => if 0x480 ≤ h.val ∧ h.val < 0x500 then some [(h.val - 0x400).toUInt8] else none

def bytes? (t : Text) : Option (List UInt8) :=
  (t.mapM pointBytes?).map List.flatten

/-- Six bits of a byte that is not the first one of its character. -/
def trail? (b : UInt8) : Option Nat :=
  if 0x80 ≤ b ∧ b < 0xC0 then some (b.toNat - 0x80) else none

/-- The code that bytes stand for, if it takes as many. -/
def code? : List UInt8 → Option Nat
  | [a] => some a.toNat
  | [a, b] => do
    let n := (a.toNat - 0xC0) * 0x40 + (← trail? b)
    if 0x80 ≤ n then some n else none
  | [a, b, c] => do
    let n := ((a.toNat - 0xE0) * 0x40 + (← trail? b)) * 0x40 + (← trail? c)
    if 0x800 ≤ n then some n else none
  | [a, b, c, d] => do
    let n := (((a.toNat - 0xF0) * 0x40 + (← trail? b)) * 0x40 + (← trail? c)) * 0x40 + (← trail? d)
    if 0x10000 ≤ n then some n else none
  | _ => none

/-- How many bytes a character takes that starts with this one, if any does. -/
def size? (first : UInt8) : Option Nat :=
  if first < 0x80 then some 1
  else if first < 0xC0 then none
  else if first < 0xE0 then some 2
  else if first < 0xF0 then some 3
  else some 4

/-- The character at the front of bytes, and the count of its bytes. -/
def front? (bytes : List UInt8) : Option (Char × Nat) := do
  let size ← size? (← bytes.head?)
  let first := bytes.take size
  let code ← if first.length = size then code? first else none
  if code.isValidChar then return (Char.ofNat code, size) else none

def ofBytes : List UInt8 → Text
  | [] => []
  | b :: r =>
    match front? (b :: r) with
    | some (c, size) => .char c :: ofBytes (r.drop (size - 1))
    | none => ofByte b :: ofBytes r
termination_by bytes => bytes.length
decreasing_by all_goals simp only [List.length_cons, List.length_drop]; omega

end AgentFleet.Text
