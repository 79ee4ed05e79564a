namespace AgentFleet

namespace Text

/-- A half of a surrogate pair, by the distance of its code from the first half's. -/
abbrev Half := Fin 0x800

/-- A character, or a half of a surrogate pair that stands without the other half. -/
inductive Point
  | char (c : Char)
  | half (h : Half)
  deriving DecidableEq, Repr

def Point.code : Point → Nat
  | .char c => c.toNat
  | .half h => 0xD800 + h

end Text

abbrev Text := List Text.Point

namespace Text

def ofString (s : String) : Text :=
  s.toList.map .char

instance : Coe String Text := ⟨ofString⟩

/-- The string that shows a text. The replacement character stands for a half. -/
def toString (t : Text) : String :=
  String.ofList (t.map fun
    | .char c => c
    | .half _ => '\uFFFD')

theorem toString_ofString (s : String) : (ofString s).toString = s := by
  simp [ofString, toString, Function.comp_def]

/-- Texts with another between each two. -/
def join (separator : Text) (texts : List Text) : Text :=
  separator.intercalate texts

/-- The capital letters of ASCII become small. -/
def lowerAscii (t : Text) : Text :=
  t.map fun
    | .char c => .char c.toLower
    | p => p

def ofNat (n : Nat) : Text :=
  (Nat.toDigits 10 n).map .char

/-- With zeros in front, up to a width. -/
def ofNatPadded (width n : Nat) : Text :=
  let digits := ofNat n
  List.replicate (width - digits.length) (.char '0') ++ digits

def ofInt : Int → Text
  | .ofNat n => ofNat n
  | .negSucc n => "-" ++ ofNat (n + 1)

/-- More digits than this are neither read nor written. -/
def digitLimit : Nat := 4300

/-- A number, unless it has too many digits. -/
def ofInt? (n : Int) : Option Text :=
  if (ofNat n.natAbs).length ≤ digitLimit then some (ofInt n) else none

/-- Order by code points, a proper beginning first. -/
def le : Text → Text → Bool
  | [], _ => true
  | _ :: _, [] => false
  | a :: r, b :: s => a.code < b.code || (a.code == b.code && le r s)

end Text

end AgentFleet
