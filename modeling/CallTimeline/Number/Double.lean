/-!
# Doubles as exact numbers

`Double.shape` reads a double as `± mantissa · 2 ^ exponent`, `Double.nearest` rounds a quotient of
natural numbers to the nearest double, a tie to the even mantissa, and past the range to infinity.
Text in both directions goes through these two, so no digit depends on the machine's own
conversions.
-/

namespace CallTimeline.Double

inductive Shape where
  | nan
  | infinite (negative : Bool)
  | finite (negative : Bool) (mantissa : Nat) (exponent : Int)
deriving Repr, DecidableEq

def power (base exponent : Nat) : Nat :=
  Nat.pow base exponent

def hiddenBit : Nat := 0x10000000000000

def signBit : Nat := 0x8000000000000000

def exponentCount : Nat := 0x800

/-- The exponent is that of the mantissa's last bit: `-1074` for the smallest doubles. -/
def shape (x : Float) : Shape :=
  let bits : Nat := x.toBits.toNat
  let negative := bits / signBit == 1
  let biased : Nat := bits / hiddenBit % exponentCount
  let fraction : Nat := bits % hiddenBit
  if biased = 2047 then if fraction = 0 then .infinite negative else .nan
  else if biased = 0 then .finite negative fraction (-1074)
  else .finite negative (hiddenBit + fraction) ((biased : Int) - 1075)

/-- The integer nearest to `num / den`, a tie to the even one. -/
def roundDiv (num den : Nat) : Nat :=
  let quotient := num / den
  let twice := 2 * (num % den)
  if twice > den ∨ (twice = den ∧ quotient % 2 = 1) then quotient + 1 else quotient

def scaled (num den : Nat) (shift : Int) : Nat × Nat :=
  (num * power 2 (-shift).toNat, den * power 2 shift.toNat)

def floorLog2 (num den : Nat) : Int :=
  let guess : Int := (Nat.log2 num : Int) - Nat.log2 den
  let (n, d) := scaled num den guess
  if d ≤ n then guess else guess - 1

/-- The bit pattern of the double nearest to a positive `num / den`. A mantissa that rounds up to
`2 ^ 53` carries into the exponent by itself. -/
def nearestBits (num den : Nat) : Nat :=
  let exponent := max (floorLog2 num den - 52) (-1074)
  let (n, d) := scaled num den exponent
  min ((exponent + 1074).toNat * hiddenBit + roundDiv n d) (2047 * hiddenBit)

def nearest (negative : Bool) (num den : Nat) : Float :=
  let magnitude := if num = 0 then 0 else nearestBits num den
  Float.ofBits (UInt64.ofNat (magnitude + if negative then signBit else 0))

def infinity (negative : Bool) : Float :=
  nearest negative (power 2 1025) 1

def nan : Float :=
  Float.ofBits 0x7FF8000000000000

/-- The double nearest to `± digits · 10 ^ exponent`. Exponents far outside the range are settled
by the number of digits, so that no power is computed for them. -/
def ofDecimal (negative : Bool) (digits : Nat) (exponent : Int) : Float :=
  let places : Int := (Nat.toDigits 10 digits).length + exponent
  if digits = 0 ∨ places < -330 then nearest negative 0 1
  else if places > 310 then infinity negative
  else nearest negative (digits * power 10 exponent.toNat) (power 10 (-exponent).toNat)

def ofInt (i : Int) : Float :=
  nearest (i < 0) i.natAbs 1

def truncate? (x : Float) : Option Int :=
  match shape x with
  | .finite negative mantissa exponent =>
    let whole := mantissa * power 2 exponent.toNat / power 2 (-exponent).toNat
    some (if negative then -whole else whole)
  | _ => none

def isFinite (x : Float) : Bool :=
  (truncate? x).isSome

end CallTimeline.Double
