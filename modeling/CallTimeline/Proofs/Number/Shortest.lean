import CallTimeline.Number.Shortest
import CallTimeline.Proofs.Number.Rounding
import Mathlib.Data.Nat.Cast.Order.Field

/-!
# The shortest decimal

Of the decimals with 17 digits one always reads back as the double (`exists_readsBack`), so the
shortest one does too (`roundsTo_shortest`).
-/

namespace CallTimeline.Double

def Decimal.value (d : Decimal) : ℚ :=
  d.digits * 10 ^ d.exponent

theorem Decimal.div_eq (d : Decimal) (binary : Int) :
    ((4 * d.digits * power 10 d.exponent.toNat * power 2 (-binary).toNat : Nat) : ℚ) /
      (power 10 (-d.exponent).toNat * power 2 binary.toNat : Nat) = 4 * (d.value / 2 ^ binary) := by
  rw [value, ← Nat.cast_ofNat (R := ℚ) (n := 10), ← power_toNat_div (by decide : 0 < 10),
    ← Nat.cast_ofNat (R := ℚ) (n := 2), ← power_toNat_div (by decide : 0 < 2), div_div_eq_mul_div]
  push_cast
  ring

theorem readsBack_iff {mantissa : Nat} {binary : Int} {d : Decimal} (positive : 0 < mantissa) :
    readsBack mantissa binary d = true ↔ RoundsTo mantissa binary d.value := by
  have unit : (0 : ℚ) < (power 10 (-d.exponent).toNat * power 2 binary.toNat : Nat) := by
    exact_mod_cast Nat.mul_pos (power_pos (by decide) _) (power_pos (by decide) _)
  have gap : gapBelow mantissa binary ≤ 4 * mantissa := by
    unfold gapBelow
    split <;> omega
  have low : (4 * mantissa - gapBelow mantissa binary : ℚ) =
      (4 * mantissa - gapBelow mantissa binary : Nat) := by push_cast [gap]; ring
  have high : (4 * mantissa + 2 : ℚ) = (4 * mantissa + 2 : Nat) := by push_cast; ring
  rw [readsBack, ← gapBelow]
  by_cases even : mantissa % 2 = 0
  · rw [if_pos even, Bool.and_eq_true, decide_eq_true_eq, decide_eq_true_eq,
      ← @Nat.cast_le ℚ, ← @Nat.cast_le ℚ, Nat.cast_mul (4 * mantissa - _),
      Nat.cast_mul (4 * mantissa + 2),
      ← le_div_iff₀ unit, ← div_le_iff₀ unit, d.div_eq, ← low, ← high]
    exact ⟨fun holds => ⟨holds.1, holds.2, fun odd => by omega⟩,
      fun rounds => ⟨rounds.low, rounds.high⟩⟩
  · rw [if_neg even, Bool.and_eq_true, decide_eq_true_eq, decide_eq_true_eq,
      ← @Nat.cast_lt ℚ, ← @Nat.cast_lt ℚ, Nat.cast_mul (4 * mantissa - _),
      Nat.cast_mul (4 * mantissa + 2),
      ← lt_div_iff₀ unit, ← div_lt_iff₀ unit, d.div_eq, ← low, ← high]
    exact ⟨fun holds => ⟨holds.1.le, holds.2.le, fun _ => holds⟩,
      fun rounds => rounds.odd (by omega)⟩

theorem zpow_floorLog10_le {num den : Nat} (positive : 0 < num) (positive' : 0 < den) :
    (10 : ℚ) ^ floorLog10 num den ≤ num / den := by
  have den_pos : (0 : ℚ) < den := by exact_mod_cast positive'
  unfold floorLog10
  split
  case isTrue above =>
    have quotient : 0 < num / den := Nat.div_pos above positive'
    have place : ((Nat.toDigits 10 (num / den)).length - 1 : Int) = Nat.log 10 (num / den) := by
      rw [length_toDigits quotient]
      omega
    have digits : (10 ^ Nat.log 10 (num / den) : ℚ) ≤ (num / den : Nat) := by
      exact_mod_cast Nat.pow_log_le_self 10 quotient.ne'
    rw [place, zpow_natCast]
    exact digits.trans Nat.cast_div_le
  case isFalse =>
    have bound := (Nat.length_toDigits_le_iff (by decide : 1 < 10) Nat.length_toDigits_pos).mp
      (Nat.le_refl (Nat.toDigits 10 ((den + num - 1) / num - 1)).length)
    generalize (Nat.toDigits 10 ((den + num - 1) / num - 1)).length = places at bound ⊢
    have reaches : den ≤ num * 10 ^ places := by
      have ceil : den ≤ num * ((den + num - 1) / num) := by
        have := Nat.div_add_mod (den + num - 1) num
        have := Nat.mod_lt (den + num - 1) positive
        omega
      exact ceil.trans (Nat.mul_le_mul_left num (by omega))
    rw [zpow_neg, zpow_natCast, le_div_iff₀ den_pos, inv_mul_le_iff₀ (by positivity), mul_comm]
    exact_mod_cast reaches

theorem roundDiv_bounds {num den : Nat} (positive : 0 < den) :
    2 * num ≤ 2 * (roundDiv num den * den) + den ∧
      2 * (roundDiv num den * den) ≤ 2 * num + den := by
  have whole := Nat.div_add_mod' num den
  have below := Nat.mod_lt num positive
  unfold roundDiv
  simp only
  split
  case isTrue up =>
    rw [Nat.add_mul]
    omega
  case isFalse down => omega

theorem roundDiv_near {num den : Nat} (positive : 0 < den) :
    |(roundDiv num den : ℚ) - num / den| ≤ 1 / 2 := by
  have den_pos : (0 : ℚ) < den := by exact_mod_cast positive
  have bounds := @roundDiv_bounds num den positive
  have low : (2 * num : ℚ) ≤ 2 * (roundDiv num den * den) + den := by exact_mod_cast bounds.1
  have high : (2 * (roundDiv num den * den) : ℚ) ≤ 2 * num + den := by exact_mod_cast bounds.2
  rw [abs_sub_le_iff, sub_le_comm, le_div_iff₀ den_pos, sub_le_iff_le_add, div_le_iff₀ den_pos]
  constructor <;> linarith

theorem roundDiv_mem_neighbours (num den : Nat) (exponent : Int) :
    ⟨roundDiv (num * power 10 (-exponent).toNat) (den * power 10 exponent.toNat), exponent⟩ ∈
      neighbours num den exponent := by
  unfold neighbours
  simp only
  split
  case isTrue same => rw [same]; exact List.mem_cons_self
  case isFalse other =>
    suffices up : roundDiv (num * power 10 (-exponent).toNat) (den * power 10 exponent.toNat) =
        num * power 10 (-exponent).toNat / (den * power 10 exponent.toNat) + 1 by
      rw [up]
      exact List.mem_cons_self
    unfold roundDiv at other ⊢
    simp only at other ⊢
    split
    case isTrue => rfl
    case isFalse down => exact absurd (if_neg down) other

section

variable {mantissa : Nat} {binary : Int} (canonical : Canonical mantissa binary)

include canonical

/-- With 17 digits the decimals lie closer together than the halfway marks around a double. -/
theorem roundsTo_of_grid {digits : Nat} {place : Int}
    (fine : (10 : ℚ) ^ place * 10 ^ 16 ≤ mantissa * 2 ^ binary)
    (near : |(digits : ℚ) - mantissa * 2 ^ binary / 10 ^ place| ≤ 1 / 2) :
    RoundsTo mantissa binary (digits * 10 ^ place) := by
  have ten : (0 : ℚ) < 10 ^ place := by positivity
  have two : (0 : ℚ) < 2 ^ binary := by positivity
  have step : (10 : ℚ) ^ place / 2 ^ binary ≤ mantissa / 10 ^ 16 := by
    rw [div_le_div_iff₀ two (by positivity)]
    exact fine
  have moved : (digits * 10 ^ place / 2 ^ binary : ℚ) - mantissa =
      (digits - mantissa * 2 ^ binary / 10 ^ place) * (10 ^ place / 2 ^ binary) := by
    field_simp
  have close :
      |(digits * 10 ^ place / 2 ^ binary : ℚ) - mantissa| ≤ 1 / 2 * (mantissa / 10 ^ 16) := by
    rw [moved, abs_mul, abs_of_pos (div_pos ten two)]
    gcongr
  -- The error is at most `mantissa / (2 * 10 ^ 16)`, and `2 ^ 53 < 10 ^ 16`.
  refine RoundsTo.of_near (lt_of_le_of_lt (mul_le_mul_of_nonneg_left close (by norm_num)) ?_)
  unfold gapBelow
  split
  case isTrue powerOfTwo =>
    rw [powerOfTwo.1]
    norm_num [hiddenBit]
  case isFalse =>
    have below : (mantissa : ℚ) < 2 ^ 53 := by exact_mod_cast canonical.below
    rw [Nat.cast_ofNat]
    linarith

variable (positive : 0 < mantissa)

include positive

theorem exists_readsBack :
    ∃ d ∈ neighbours (mantissa * power 2 binary.toNat) (power 2 (-binary).toNat)
        (floorLog10 (mantissa * power 2 binary.toNat) (power 2 (-binary).toNat) - (16 : Nat)),
      readsBack mantissa binary d = true := by
  have num_pos : 0 < mantissa * power 2 binary.toNat :=
    Nat.mul_pos positive (power_pos (by decide) _)
  have den_pos : 0 < power 2 (-binary).toNat := power_pos (by decide) _
  have number : ((mantissa * power 2 binary.toNat : Nat) : ℚ) / power 2 (-binary).toNat =
      mantissa * 2 ^ binary := by
    rw [Nat.cast_mul, mul_div_assoc, power_toNat_div (by decide), Nat.cast_ofNat]
  have first := zpow_floorLog10_le num_pos den_pos
  generalize floorLog10 (mantissa * power 2 binary.toNat) (power 2 (-binary).toNat) = top at first ⊢
  refine ⟨_, roundDiv_mem_neighbours _ _ _, (readsBack_iff positive).mpr ?_⟩
  refine roundsTo_of_grid canonical ?_ ?_
  · rw [← zpow_natCast, ← zpow_add₀ (by norm_num), Int.sub_add_cancel]
    exact first.trans_eq number
  · have near := @roundDiv_near
      (mantissa * power 2 binary.toNat * power 10 (-(top - (16 : Nat))).toNat) _
      (Nat.mul_pos den_pos (power_pos (by decide : 0 < 10) (top - (16 : Nat)).toNat))
    rwa [shift_div (by decide), number, Nat.cast_ofNat] at near

theorem roundsTo_shortest : RoundsTo mantissa binary (shortest mantissa binary).value := by
  rw [← readsBack_iff positive, shortest]
  obtain ⟨d, member, reads⟩ := exists_readsBack canonical positive
  generalize candidates_eq : (List.range 17).flatMap _ = candidates
  -- A candidate with 17 digits reads back, so the search does not come to its end.
  have among : d ∈ candidates := by
    rw [← candidates_eq]
    exact List.mem_flatMap.mpr ⟨16, by decide, member⟩
  obtain ⟨found, found_eq⟩ := Option.isSome_iff_exists.mp
    (List.find?_isSome.mpr ⟨d, among, reads⟩)
  rw [found_eq, Option.getD_some]
  exact List.find?_some found_eq

end

end CallTimeline.Double
