import AgentFleet.Decimal.Shortest
import AgentFleet.Text.Basic

namespace AgentFleet.Decimal

/-- A number as it is given: whole, or binary floating-point. -/
inductive Number
  | whole (n : Int)
  | real (x : Double)
  deriving DecidableEq, Repr

/-- How a floating-point number is laid out. -/
structure Layout where
  /-- Positional notation starts with this power of ten. -/
  leastPositional : Int
  /-- From this power of ten on, an exponent is written. -/
  leastScientific : Int
  /-- Least count of digits in an exponent. -/
  exponentWidth : Nat
  infinity : Text
  notANumber : Text

/-- A number from `0.0001` up to `10^16` is positional, with a point; an exponent has a sign and two
digits or more. -/
def Layout.plain : Layout := ⟨-4, 16, 2, "inf", "nan"⟩

def zeros (count : Nat) : Text :=
  List.replicate count (.char '0')

/-- The digits without the zeros at their end. -/
def significant (n : Nat) : Text :=
  ((Text.ofNat n).reverse.dropWhile (· = .char '0')).reverse

/-- The digits with the point after the first `point` places. -/
def positional (digits : Text) (point : Int) : Text :=
  let digits := zeros (1 - point).toNat ++ digits
  let places := (max point 1).toNat
  let fraction : Text := if digits.length ≤ places then "0" else digits.drop places
  digits.take places ++ zeros (places - digits.length) ++ "." ++ fraction

def scientific (layout : Layout) (digits : Text) (exponent : Int) : Text :=
  let fraction : Text := if digits.length ≤ 1 then "" else "." ++ digits.drop 1
  digits.take 1 ++ fraction ++ (if exponent < 0 then "e-" else "e+") ++
    Text.ofNatPadded layout.exponentWidth exponent.natAbs

def Layout.magnitude (layout : Layout) (mantissa : Nat) (exponent : Int) : Text :=
  if mantissa = 0 then "0.0"
  else
    let s := shortest mantissa exponent
    let top := (Text.ofNat s.digits).length + s.exponent
    let ds := significant s.digits
    if layout.leastPositional < top && top ≤ layout.leastScientific then positional ds top
    else scientific layout ds (top - 1)

def Layout.render (layout : Layout) : Double → Text
  | .finite negative m e => (if negative then "-" else "") ++ layout.magnitude m e
  | .infinite negative => (if negative then "-" else "") ++ layout.infinity
  | .nan => layout.notANumber

namespace Number

def render (layout : Layout) : Number → Text
  | .whole n => Text.ofInt n
  | .real x => layout.render x

def text (x : Number) : Text :=
  x.render .plain

/-- The text, unless it has too many digits. -/
def text? : Number → Option Text
  | .whole n => Text.ofInt? n
  | .real x => some (Layout.plain.render x)

def isNegative : Number → Bool
  | .whole n => n < 0
  | .real x => x.isNegative

/-- The number is greater than `num / den`. -/
def exceeds : Number → (num den : Nat) → Bool
  | .whole n, num, den => num < n * den
  | .real (.finite negative m e), num, den =>
    !negative && num * pow2 (-e).toNat < m * pow2 e.toNat * den
  | .real (.infinite negative), _, _ => !negative
  | .real .nan, _, _ => false

/-- The sum of `n` equal addends. A floating-point number has none if `n` is beyond them all. -/
def times? : Number → Int → Option Number
  | .whole a, n => some (.whole (a * n))
  | .real x, n =>
    match Double.ofInt n with
    | .infinite _ => none
    | y => some (.real (x.mul y))

end Number

end AgentFleet.Decimal
