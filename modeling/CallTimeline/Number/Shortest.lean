import CallTimeline.Number.Double

/-!
# The shortest decimal of a double

Among the decimals that read back as a given double, `Double.shortest` takes one with the fewest
digits, and of those the nearest. A grid of decimals that has a point between the two halfway
marks around the double has one next to the double itself, so two candidates per digit count are
enough.
-/

namespace CallTimeline.Double

structure Decimal where
  digits : Nat
  exponent : Int
deriving Repr, DecidableEq

def floorLog10 (num den : Nat) : Int :=
  if den ≤ num then (Nat.toDigits 10 (num / den)).length - 1
  else -((Nat.toDigits 10 ((den + num - 1) / num - 1)).length : Int)

/-- Whether `digits · 10 ^ exponent` rounds to the double `mantissa · 2 ^ binary`: it lies between
the halfway marks to the neighbours, and a mark itself belongs to an even mantissa. Below a power
of two the neighbour is half as far. -/
def readsBack (mantissa : Nat) (binary : Int) (d : Decimal) : Bool :=
  let gapBelow := if mantissa = hiddenBit ∧ -1074 < binary then 1 else 2
  let value := 4 * d.digits * power 10 d.exponent.toNat * power 2 (-binary).toNat
  let unit := power 10 (-d.exponent).toNat * power 2 binary.toNat
  let low := (4 * mantissa - gapBelow) * unit
  let high := (4 * mantissa + 2) * unit
  if mantissa % 2 = 0 then low ≤ value && value ≤ high else low < value && value < high

/-- The decimals with the last place `10 ^ exponent` on both sides of `num / den`, the nearer one
first, the even one of two equally near. -/
def neighbours (num den : Nat) (exponent : Int) : List Decimal :=
  let n := num * power 10 (-exponent).toNat
  let d := den * power 10 exponent.toNat
  let below := n / d
  if roundDiv n d = below then [⟨below, exponent⟩, ⟨below + 1, exponent⟩]
  else [⟨below + 1, exponent⟩, ⟨below, exponent⟩]

def shortest (mantissa : Nat) (binary : Int) : Decimal :=
  let num := mantissa * power 2 binary.toNat
  let den := power 2 (-binary).toNat
  let top := floorLog10 num den
  let candidates := (List.range 17).flatMap fun (place : Nat) => neighbours num den (top - place)
  (candidates.find? (readsBack mantissa binary)).getD ⟨mantissa, binary⟩

structure Layout where
  /-- The least power of ten of the first digit that is still written positionally. -/
  lowest : Int
  /-- The least power of ten of the first digit that is written with an exponent again. -/
  highest : Int
  exponentDigits : Nat

/-- Positional from `10 ^ -4` up to below `10 ^ 16`; a whole number keeps one zero behind the
point, an exponent has its sign and at least two digits. -/
def layout : Layout := { lowest := -4, highest := 16, exponentDigits := 2 }

def significant (d : Decimal) : List Char × Int :=
  let digits := Nat.toDigits 10 d.digits
  let kept := (digits.reverse.dropWhile (· == '0')).reverse
  (kept, d.exponent + digits.length - 1)

def Layout.write (layout : Layout) (d : Decimal) : List Char :=
  let (digits, first) := significant d
  if layout.lowest ≤ first ∧ first < layout.highest then
    if first < 0 then
      '0' :: '.' :: List.replicate (-first - 1).toNat '0' ++ digits
    else
      let whole := digits.take (first.toNat + 1)
      let fraction := digits.drop (first.toNat + 1)
      whole ++ List.replicate (first.toNat + 1 - whole.length) '0' ++
        '.' :: (if fraction.isEmpty then ['0'] else fraction)
  else
    let exponent := Nat.toDigits 10 first.natAbs
    let fraction := digits.drop 1
    digits.take 1 ++ (if fraction.isEmpty then [] else '.' :: fraction) ++
      'e' :: (if first < 0 then '-' else '+') ::
        (List.replicate (layout.exponentDigits - exponent.length) '0' ++ exponent)

def write (nan infinity : String) (x : Float) : String :=
  let signed (negative : Bool) (text : String) := if negative then "-" ++ text else text
  match shape x with
  | .nan => nan
  | .infinite negative => signed negative infinity
  | .finite negative 0 _ => signed negative "0.0"
  | .finite negative mantissa exponent =>
    signed negative (String.ofList (layout.write (shortest mantissa exponent)))

def display (x : Float) : String :=
  write "nan" "inf" x

end CallTimeline.Double
