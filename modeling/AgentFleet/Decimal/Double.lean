namespace AgentFleet.Decimal

def pow2 (n : Nat) : Nat :=
  Nat.pow 2 n

def pow10 (n : Nat) : Nat :=
  Nat.pow 10 n

/-- A finite number is `±mantissa · 2^exponent`, with the mantissa below `2^53` and as large as the
least exponent allows; zero has the least exponent. -/
inductive Double
  | finite (negative : Bool) (mantissa : Nat) (exponent : Int)
  | infinite (negative : Bool)
  | nan
  deriving DecidableEq, Repr

namespace Double

def leastExponent : Int := -1074
def greatestExponent : Int := 971
def mantissaBits : Nat := 53

def zero (negative : Bool) : Double :=
  .finite negative 0 leastExponent

end Double

/-- The quotient to the nearest whole number; a half goes to the even one. -/
def roundDiv (num den : Nat) : Nat :=
  let q := num / den
  let r := num % den
  if 2 * r < den then q
  else if den < 2 * r then q + 1
  else q + q % 2

/-- `num / den` over `2^e`, again as a quotient. -/
def perPowerOfTwo (num den : Nat) (e : Int) : Nat × Nat :=
  (num * pow2 (-e).toNat, den * pow2 e.toNat)

namespace Double

/-- The number nearest to `num / den`; a half goes to the even mantissa. -/
def nearest (negative : Bool) (num den : Nat) : Double :=
  if num = 0 then zero negative
  else
    let guess := max ((num.log2 : Int) - den.log2 - mantissaBits) leastExponent
    let (n, d) := perPowerOfTwo num den guess
    let e := if n / d < pow2 mantissaBits then guess else guess + 1
    let (n, d) := perPowerOfTwo num den e
    let m := roundDiv n d
    let (m, e) := if m = pow2 mantissaBits then (m / 2, e + 1) else (m, e)
    if greatestExponent < e then .infinite negative else .finite negative m e

/-- The number nearest to `digits · 10^e`. Far outside the range the power is not computed. -/
def ofDecimal (negative : Bool) (digits : Nat) (e : Int) : Double :=
  if digits = 0 || e + (digits.log2 : Int) < -330 then zero negative
  else if 400 < e then .infinite negative
  else nearest negative (digits * pow10 e.toNat) (pow10 (-e).toNat)

def ofInt (n : Int) : Double :=
  nearest (n < 0) n.natAbs 1

def isZero : Double → Bool
  | .finite _ m _ => m == 0
  | _ => false

/-- The whole part of a finite number, its size rounded down. -/
def whole? : Double → Option Int
  | .finite negative m e =>
    let n := m * pow2 e.toNat / pow2 (-e).toNat
    some (if negative then -(n : Int) else n)
  | _ => none

def isNegative : Double → Bool
  | .finite negative m _ => negative && m != 0
  | .infinite negative => negative
  | .nan => false

def mul : Double → Double → Double
  | .finite s m e, .finite t n f =>
    let g := e + f
    nearest (s != t) (m * n * pow2 g.toNat) (pow2 (-g).toNat)
  | .finite s m _, .infinite t | .infinite t, .finite s m _ =>
    if m = 0 then .nan else .infinite (s != t)
  | .infinite s, .infinite t => .infinite (s != t)
  | _, _ => .nan

end Double

end AgentFleet.Decimal
