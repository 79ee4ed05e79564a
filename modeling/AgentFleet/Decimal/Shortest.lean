import AgentFleet.Decimal.Double

namespace AgentFleet.Decimal

/-- A positive decimal number `digits · 10^exponent`. -/
structure Scaled where
  digits : Nat
  exponent : Int
  deriving DecidableEq, Repr

/-- The numbers that round to one mantissa, as quotients over `unit`: twice below the mantissa's
lower neighbour lies half as far away. -/
structure Interval where
  low : Nat
  middle : Nat
  high : Nat
  unit : Nat
  closed : Bool

def Interval.of (mantissa : Nat) (exponent : Int) : Interval :=
  let e := exponent - 2
  let scale (n : Nat) : Nat := n * pow2 e.toNat
  let narrow := mantissa == pow2 (Double.mantissaBits - 1) && Double.leastExponent < exponent
  { low := scale (4 * mantissa - if narrow then 1 else 2)
    middle := scale (4 * mantissa)
    high := scale (4 * mantissa + 2)
    unit := pow2 (-e).toNat
    closed := mantissa % 2 == 0 }

/-- Does `digits · 10^exponent` round to the mantissa? -/
def Interval.holds (i : Interval) (s : Scaled) : Bool :=
  let x := s.digits * pow10 s.exponent.toNat * i.unit
  let ten := pow10 (-s.exponent).toNat
  if i.closed then i.low * ten ≤ x && x ≤ i.high * ten
  else i.low * ten < x && x < i.high * ten

/-- The least power of ten above `num / den`, sought from `p` on. -/
def powerAbove (num den : Nat) : (tries : Nat) → (p : Int) → Int
  | 0, p => p
  | k + 1, p =>
    if num * pow10 (-p).toNat < den * pow10 p.toNat then p else powerAbove num den k (p + 1)

/-- The two points of the grid `10^exponent` around `num / den`, the nearer one first; of two
equally near points the even one. -/
def neighbours (num den : Nat) (exponent : Int) : List Scaled :=
  let n := num * pow10 (-exponent).toNat
  let d := den * pow10 exponent.toNat
  let near := roundDiv n d
  let far := if near = n / d then near + 1 else n / d
  [⟨near, exponent⟩, ⟨far, exponent⟩]

def withDigits (i : Interval) (above : Int) : (fuel : Nat) → (count : Nat) → Scaled
  | 0, count => ⟨roundDiv (i.middle * pow10 (count - above).toNat)
      (i.unit * pow10 (above - count).toNat), above - count⟩
  | k + 1, count =>
    match (neighbours i.middle i.unit (above - count)).find? i.holds with
    | some s => s
    | none => withDigits i above k (count + 1)

/-- Seventeen digits always suffice. -/
def shortest (mantissa : Nat) (exponent : Int) : Scaled :=
  let i := Interval.of mantissa exponent
  let estimate := ((mantissa.log2 : Int) + exponent) * 30103 / 100000
  withDigits i (powerAbove i.middle i.unit 4 (estimate - 1)) 16 1

end AgentFleet.Decimal
