import CallTimeline.Proofs.Number.Bits
import Mathlib.Algebra.Order.Field.Power
import Mathlib.Data.Int.Log
import Mathlib.Data.Rat.Floor
import Mathlib.Tactic.FieldSimp
import Mathlib.Tactic.Linarith

/-!
# Rounding

`Double.nearest` gives a finite double for every number between the halfway marks around it
(`RoundsTo.nearest_eq`), and so does `Double.ofDecimal` for the decimals there
(`RoundsTo.ofDecimal_eq`).
-/

namespace CallTimeline.Double

theorem power_pos {base : Nat} (positive : 0 < base) (exponent : Nat) : 0 < power base exponent :=
  Nat.pow_pos positive

theorem cast_power (base exponent : Nat) : (power base exponent : ℚ) = (base : ℚ) ^ exponent :=
  Nat.cast_pow base exponent

theorem power_toNat_div {base : Nat} (positive : 0 < base) (exponent : Int) :
    (power base exponent.toNat : ℚ) / power base (-exponent).toNat = (base : ℚ) ^ exponent := by
  have nonzero : (base : ℚ) ≠ 0 := by positivity
  rw [cast_power, cast_power, ← zpow_natCast, ← zpow_natCast, ← zpow_sub₀ nonzero]
  congr 1
  omega

theorem scaled_pos {num den : Nat} (positive : 0 < den) (shift : Int) :
    0 < (scaled num den shift).2 :=
  Nat.mul_pos positive (power_pos (by decide) _)

theorem shift_div {base : Nat} (positive : 0 < base) (num den : Nat) (shift : Int) :
    ((num * power base (-shift).toNat : Nat) : ℚ) / (den * power base shift.toNat : Nat) =
      num / den / base ^ shift := by
  rw [← power_toNat_div positive, div_div_eq_mul_div]
  push_cast
  ring

theorem scaled_div (num den : Nat) (shift : Int) :
    ((scaled num den shift).1 : ℚ) / (scaled num den shift).2 = num / den / 2 ^ shift :=
  shift_div (by decide) num den shift

theorem roundDiv_eq {num den whole : Nat} (positive : 0 < den)
    (low : (2 * whole - 1 : ℚ) ≤ 2 * (num / den)) (high : 2 * (num / den : ℚ) ≤ 2 * whole + 1)
    (odd : whole % 2 = 1 →
      (2 * whole - 1 : ℚ) < 2 * (num / den) ∧ 2 * (num / den : ℚ) < 2 * whole + 1) :
    roundDiv num den = whole := by
  have positive' : (0 : ℚ) < den := by exact_mod_cast positive
  rw [mul_div_assoc', le_div_iff₀ positive', sub_mul, sub_le_iff_le_add] at low
  rw [mul_div_assoc', div_le_iff₀ positive', add_mul] at high
  rw [mul_div_assoc', lt_div_iff₀ positive', div_lt_iff₀ positive', sub_mul, sub_lt_iff_lt_add,
    add_mul] at odd
  norm_cast at low high odd
  have rest := Nat.mod_lt num positive
  unfold roundDiv
  simp only
  rw [← Nat.div_add_mod num den] at low high odd
  generalize num / den = quotient at *
  generalize num % den = remainder at *
  have notAbove : whole ≤ quotient + 1 := by
    by_contra above
    have : den * (quotient + 2) ≤ den * whole := Nat.mul_le_mul_left den (by omega)
    linarith
  have notBelow : quotient ≤ whole := by
    by_contra below
    have : den * (whole + 1) ≤ den * quotient := Nat.mul_le_mul_left den (by omega)
    linarith
  rcases Nat.lt_or_eq_of_le notBelow with below | rfl
  · obtain rfl : whole = quotient + 1 := by omega
    have expand : 2 * (quotient + 1) * den = 2 * (den * quotient) + 2 * den := by ring
    rw [expand] at low high odd
    rw [if_pos (by omega)]
  · have expand : 2 * quotient * den = 2 * (den * quotient) := by ring
    rw [expand] at low high odd
    rw [if_neg (by omega)]

theorem scaled_le_iff (num den : Nat) (shift : Int) (positive : 0 < den) :
    (scaled num den shift).2 ≤ (scaled num den shift).1 ↔ (2 : ℚ) ^ shift ≤ num / den := by
  have positive' : (0 : ℚ) < (scaled num den shift).2 := by exact_mod_cast scaled_pos positive shift
  rw [← one_le_div₀ (by positivity : (0 : ℚ) < 2 ^ shift), ← scaled_div, one_le_div₀ positive']
  norm_cast

theorem floorLog2_eq {num den : Nat} (positive : 0 < num) (positive' : 0 < den) :
    floorLog2 num den = Int.log 2 (num / den : ℚ) := by
  have bounds (n : Nat) (h : 0 < n) :
      (2 : ℚ) ^ (n.log2 : Int) ≤ n ∧ (n : ℚ) < 2 ^ (n.log2 + 1 : Int) := by
    norm_cast
    exact ⟨Nat.log2_self_le h.ne', Nat.lt_log2_self⟩
  obtain ⟨numLow, numHigh⟩ := bounds num positive
  obtain ⟨denLow, denHigh⟩ := bounds den positive'
  have quotient : (0 : ℚ) < num / den := by positivity
  set guess : Int := (num.log2 : Int) - den.log2 with guess_def
  have above : (2 : ℚ) ^ (guess - 1) ≤ num / den := by
    rw [le_div_iff₀ (by positivity)]
    calc (2 : ℚ) ^ (guess - 1) * den ≤ 2 ^ (guess - 1) * 2 ^ (den.log2 + 1 : Int) := by gcongr
      _ = 2 ^ (num.log2 : Int) := by rw [← zpow_add₀ two_ne_zero]; congr 1; omega
      _ ≤ num := numLow
  have below : (num / den : ℚ) < 2 ^ (guess + 1) := by
    rw [div_lt_iff₀ (by positivity)]
    calc (num : ℚ) < 2 ^ (num.log2 + 1 : Int) := numHigh
      _ = 2 ^ (guess + 1) * 2 ^ (den.log2 : Int) := by rw [← zpow_add₀ two_ne_zero]; congr 1; omega
      _ ≤ 2 ^ (guess + 1) * den := by gcongr
  have log_lt := (Int.lt_zpow_iff_log_lt (by decide : 1 < 2) quotient).mp below
  have le_log := (Int.zpow_le_iff_le_log (by decide : 1 < 2) quotient).mp above
  have at_guess := Int.zpow_le_iff_le_log (by decide : 1 < 2) quotient (x := guess)
  rw [Nat.cast_ofNat, ← scaled_le_iff _ _ _ positive'] at at_guess
  rw [floorLog2]
  simp only [← guess_def, at_guess]
  split <;> omega

/-- Four times the distance from a double to the halfway mark below it, in units of its last bit:
below a power of two the neighbour is half as far. -/
def gapBelow (mantissa : Nat) (exponent : Int) : Nat :=
  if mantissa = hiddenBit ∧ -1074 < exponent then 1 else 2

/-- A number lies between the halfway marks around a double, and on a mark only if the mantissa is
even. -/
structure RoundsTo (mantissa : Nat) (exponent : Int) (number : ℚ) : Prop where
  low : (4 * mantissa - gapBelow mantissa exponent : ℚ) ≤ 4 * (number / 2 ^ exponent)
  high : 4 * (number / 2 ^ exponent) ≤ 4 * mantissa + 2
  odd : mantissa % 2 = 1 →
    (4 * mantissa - gapBelow mantissa exponent : ℚ) < 4 * (number / 2 ^ exponent) ∧
      4 * (number / 2 ^ exponent) < 4 * mantissa + 2

section

variable {mantissa : Nat} {exponent : Int} {number : ℚ}

theorem gapBelow_le : (gapBelow mantissa exponent : ℚ) ≤ 2 := by
  unfold gapBelow
  split <;> norm_num

theorem zpow_add_le_iff {more : Nat} :
    (2 : ℚ) ^ (exponent + more) ≤ number ↔ 2 ^ more ≤ number / 2 ^ exponent := by
  rw [le_div_iff₀ (by positivity), zpow_add₀ two_ne_zero, zpow_natCast, mul_comm]

theorem lt_zpow_add_iff {more : Nat} :
    number < (2 : ℚ) ^ (exponent + more) ↔ number / 2 ^ exponent < 2 ^ more := by
  rw [← not_le, zpow_add_le_iff, not_le]

theorem RoundsTo.pos (rounds : RoundsTo mantissa exponent number) (positive : 0 < mantissa) :
    0 < number := by
  have unit : (0 : ℚ) < 2 ^ exponent := by positivity
  have whole : (1 : ℚ) ≤ mantissa := by exact_mod_cast positive
  have := rounds.low
  have := @gapBelow_le mantissa exponent
  have : 0 < number / 2 ^ exponent := by linarith
  exact (div_pos_iff_of_pos_right unit).mp this

theorem RoundsTo.of_near
    (near : 4 * |number / 2 ^ exponent - mantissa| < gapBelow mantissa exponent) :
    RoundsTo mantissa exponent number := by
  have gap := @gapBelow_le mantissa exponent
  have bounds : |number / 2 ^ exponent - mantissa| < gapBelow mantissa exponent / 4 := by linarith
  obtain ⟨low, high⟩ := abs_lt.mp bounds
  exact ⟨by linarith, by linarith, fun _ => ⟨by linarith, by linarith⟩⟩

/-- The exponent with which a number is rounded: that of the double, or one less just below a power
of two. -/
theorem RoundsTo.exponent_eq (rounds : RoundsTo mantissa exponent number)
    (canonical : Canonical mantissa exponent) (positive : 0 < mantissa) :
    max (Int.log 2 number - 52) (-1074) = exponent ∨
      max (Int.log 2 number - 52) (-1074) = exponent - 1 ∧ mantissa = hiddenBit ∧
        -1074 < exponent ∧ number / 2 ^ exponent < 2 ^ 52 := by
  have number_pos := rounds.pos positive
  have low := rounds.low
  have high := rounds.high
  have gap := @gapBelow_le mantissa exponent
  have least := canonical.least
  have upper : Int.log 2 number < exponent + (53 : Nat) := by
    rw [← Int.lt_zpow_iff_log_lt (by decide) number_pos, Nat.cast_ofNat, lt_zpow_add_iff]
    have below : (mantissa : ℚ) + 1 ≤ 2 ^ 53 := by exact_mod_cast canonical.below
    linarith
  rcases eq_or_lt_of_le least with bottom | above
  · left
    omega
  have normal : (2 : ℚ) ^ 52 ≤ mantissa := by exact_mod_cast canonical.normal above
  have lower : exponent + (51 : Nat) ≤ Int.log 2 number := by
    rw [← Int.zpow_le_iff_le_log (by decide) number_pos, Nat.cast_ofNat, zpow_add_le_iff]
    linarith
  have middle := Int.zpow_le_iff_le_log (by decide : 1 < 2) number_pos (x := exponent + (52 : Nat))
  rw [Nat.cast_ofNat, zpow_add_le_iff] at middle
  -- What rounds to a mantissa from below has 53 bits as well, unless the mantissa is the least one.
  by_cases reaches : (2 : ℚ) ^ 52 ≤ number / 2 ^ exponent
  · left
    have := middle.mp reaches
    omega
  · right
    refine ⟨by have := mt middle.mpr reaches; omega, ?_, above, not_le.mp reaches⟩
    by_contra other
    have larger : (2 : ℚ) ^ 52 + 1 ≤ mantissa := by
      have := canonical.normal above
      exact_mod_cast (by omega : hiddenBit + 1 ≤ mantissa)
    linarith

theorem RoundsTo.nearestBits_eq {num den : Nat} (rounds : RoundsTo mantissa exponent (num / den))
    (canonical : Canonical mantissa exponent) (positive : 0 < mantissa) (positive' : 0 < den) :
    nearestBits num den = (exponent + 1074).toNat * hiddenBit + mantissa := by
  have number_pos := rounds.pos positive
  have num_pos : 0 < num := by
    rw [Nat.pos_iff_ne_zero]
    rintro rfl
    simp at number_pos
  have least := canonical.least
  have greatest := canonical.greatest
  have below := canonical.below
  have low := rounds.low
  have high := rounds.high
  have odd := rounds.odd
  have gap := @gapBelow_le mantissa exponent
  rw [nearestBits, floorLog2_eq num_pos positive']
  simp only
  rcases rounds.exponent_eq canonical positive with same | ⟨lower, rfl, above, under⟩
  · have whole : roundDiv (scaled num den exponent).1 (scaled num den exponent).2 = mantissa := by
      refine roundDiv_eq (scaled_pos positive' exponent) ?_ ?_ fun odd_ => ?_
      · rw [scaled_div]; linarith
      · rw [scaled_div]; linarith
      · obtain ⟨low, high⟩ := odd odd_
        rw [scaled_div]
        constructor <;> linarith
    rw [same, whole]
    simp only [hiddenBit] at *
    omega
  -- One exponent less, it rounds to twice the mantissa, and the carry makes up for the exponent.
  · have gap_one : (gapBelow hiddenBit exponent : ℚ) = 1 := by
      rw [gapBelow, if_pos ⟨rfl, above⟩, Nat.cast_one]
    have halved : (num / den / 2 ^ (exponent - 1) : ℚ) = 2 * (num / den / 2 ^ exponent) := by
      rw [zpow_sub_one₀ two_ne_zero]
      field_simp
    have whole : roundDiv (scaled num den (exponent - 1)).1 (scaled num den (exponent - 1)).2 =
        2 * hiddenBit := by
      refine roundDiv_eq (scaled_pos positive' _) ?_ ?_ fun odd_ => by omega
      · rw [scaled_div, halved]; push_cast; linarith
      · rw [scaled_div, halved]; norm_num [hiddenBit] at under ⊢; linarith
    rw [lower, whole]
    simp only [hiddenBit] at *
    omega

end

section

variable {x : Float} {negative : Bool} {mantissa : Nat} {exponent : Int}
  (finite : shape x = .finite negative mantissa exponent)

include finite

theorem RoundsTo.nearest_eq {num den : Nat} (rounds : RoundsTo mantissa exponent (num / den))
    (positive : 0 < mantissa) (positive' : 0 < den) : nearest negative num den = x := by
  have num_ne : num ≠ 0 := by
    rintro rfl
    have := rounds.pos positive
    simp at this
  rw [nearest, if_neg num_ne, rounds.nearestBits_eq (.of_shape finite) positive positive']
  exact (eq_ofBits finite).symm

theorem nearest_zero (zero : mantissa = 0) (den : Nat) : nearest negative 0 den = x := by
  have canonical := Canonical.of_shape finite
  have least : exponent = -1074 := by
    by_contra other
    have := canonical.normal (by have := canonical.least; omega)
    subst zero
    exact absurd this (by decide)
  rw [eq_ofBits finite, zero, least]
  rfl

end

theorem length_toDigits {n : Nat} (positive : 0 < n) :
    (Nat.toDigits 10 n).length = Nat.log 10 n + 1 := by
  have bound (k : Nat) : (Nat.toDigits 10 n).length ≤ k + 1 ↔ n < 10 ^ (k + 1) :=
    Nat.length_toDigits_le_iff (by decide) (Nat.succ_pos k)
  have atMost := (bound (Nat.log 10 n)).mpr (Nat.lt_pow_succ_log_self (by decide) n)
  by_contra other
  obtain ⟨k, length⟩ := Nat.exists_eq_add_one.mpr (Nat.length_toDigits_pos (b := 10) (n := n))
  have below := (bound k).mp length.le
  have := Nat.log_lt_of_lt_pow positive.ne' below
  omega

theorem log_decimal {digits : Nat} (positive : 0 < digits) (exponent : Int) :
    Int.log 10 (digits * 10 ^ exponent : ℚ) = (Nat.toDigits 10 digits).length + exponent - 1 := by
  have low : (10 : ℚ) ^ Nat.log 10 digits ≤ digits := by
    exact_mod_cast Nat.pow_log_le_self 10 positive.ne'
  have high : (digits : ℚ) < 10 ^ (Nat.log 10 digits + 1) := by
    exact_mod_cast Nat.lt_pow_succ_log_self (by decide) digits
  have number_pos : (0 : ℚ) < digits * 10 ^ exponent := by positivity
  have le_log := Int.zpow_le_iff_le_log (by decide : 1 < 10) number_pos
    (x := Nat.log 10 digits + exponent)
  have log_lt := Int.lt_zpow_iff_log_lt (by decide : 1 < 10) number_pos
    (x := (Nat.log 10 digits + 1 : Nat) + exponent)
  rw [Nat.cast_ofNat, zpow_add₀ (by norm_num), zpow_natCast] at le_log log_lt
  have := le_log.mp (by gcongr)
  have := log_lt.mp (by gcongr)
  rw [length_toDigits positive]
  omega

section

variable {mantissa : Nat} {exponent : Int} {number : ℚ}

theorem RoundsTo.log_bounds (rounds : RoundsTo mantissa exponent number)
    (canonical : Canonical mantissa exponent) (positive : 0 < mantissa) :
    -324 ≤ Int.log 10 number ∧ Int.log 10 number < 309 := by
  have number_pos := rounds.pos positive
  have whole : (1 : ℚ) ≤ mantissa := by exact_mod_cast positive
  have below : (mantissa : ℚ) + 1 ≤ 2 ^ 53 := by exact_mod_cast canonical.below
  have low := rounds.low
  have high := rounds.high
  have gap := @gapBelow_le mantissa exponent
  have least : (2 : ℚ) ^ 1075 ≤ 10 ^ 324 := by
    exact_mod_cast (by decide +kernel : 2 ^ 1075 ≤ 10 ^ 324)
  have greatest : (2 : ℚ) ^ 1024 < 10 ^ 309 := by
    exact_mod_cast (by decide +kernel : 2 ^ 1024 < 10 ^ 309)
  have unit : (0 : ℚ) < 2 ^ exponent := by positivity
  have number_eq : number = 2 ^ exponent * (number / 2 ^ exponent) :=
    (mul_div_cancel₀ number unit.ne').symm
  have smallest : (2 : ℚ) ^ (-1074 : Int) ≤ 2 ^ exponent :=
    zpow_le_zpow_right₀ one_le_two canonical.least
  have largest : (2 : ℚ) ^ exponent ≤ 2 ^ (971 : Int) :=
    zpow_le_zpow_right₀ one_le_two canonical.greatest
  constructor
  · rw [← Int.zpow_le_iff_le_log (by decide) number_pos]
    calc ((10 : Nat) : ℚ) ^ (-324 : Int) = (10 ^ 324)⁻¹ := zpow_neg _ _
      _ ≤ (2 ^ 1075)⁻¹ := inv_anti₀ (by positivity) least
      _ = 2 ^ (-1074 : Int) * 2⁻¹ := by rw [pow_succ, mul_inv, zpow_neg]; rfl
      _ ≤ 2 ^ exponent * 2⁻¹ := by gcongr
      _ ≤ 2 ^ exponent * (number / 2 ^ exponent) := by
          gcongr
          linarith
      _ = number := number_eq.symm
  · rw [← Int.lt_zpow_iff_log_lt (by decide) number_pos]
    calc number = 2 ^ exponent * (number / 2 ^ exponent) := number_eq
      _ ≤ 2 ^ exponent * 2 ^ 53 := by
          gcongr
          linarith
      _ ≤ 2 ^ (971 : Int) * 2 ^ 53 := by gcongr
      _ = 2 ^ (1024 : Int) := by rw [← zpow_natCast, ← zpow_add₀ two_ne_zero]; rfl
      _ < ((10 : Nat) : ℚ) ^ (309 : Int) := greatest

theorem RoundsTo.ofDecimal_eq {x : Float} {negative : Bool} {digits : Nat} {place : Int}
    (rounds : RoundsTo mantissa exponent (digits * 10 ^ place))
    (finite : shape x = .finite negative mantissa exponent) (positive : 0 < mantissa) :
    ofDecimal negative digits place = x := by
  have digits_pos : 0 < digits := by
    rw [Nat.pos_iff_ne_zero]
    rintro rfl
    have := rounds.pos positive
    simp at this
  have bounds := rounds.log_bounds (.of_shape finite) positive
  rw [log_decimal digits_pos] at bounds
  rw [ofDecimal, if_neg (by omega), if_neg (by omega)]
  refine RoundsTo.nearest_eq finite ?_ positive (power_pos (by decide) _)
  rw [Nat.cast_mul, mul_div_assoc, power_toNat_div (by decide), Nat.cast_ofNat]
  exact rounds

end

theorem ofDecimal_zero {x : Float} {negative : Bool} {exponent : Int}
    (zero : shape x = .finite negative 0 exponent) (place : Int) :
    ofDecimal negative 0 place = x := by
  rw [ofDecimal, if_pos (.inl rfl)]
  exact nearest_zero zero rfl 1

end CallTimeline.Double
