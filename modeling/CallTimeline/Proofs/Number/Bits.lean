import CallTimeline.Number.Double
import Mathlib

namespace CallTimeline.Double

open Float.Model.UnpackedFloat

/-- How the mantissa and the exponent of a finite double lie: the mantissa has 53 bits, except for
the smallest doubles. -/
structure Canonical (mantissa : Nat) (exponent : Int) : Prop where
  below : mantissa < 2 * hiddenBit
  least : -1074 ≤ exponent
  greatest : exponent ≤ 971
  normal : -1074 < exponent → hiddenBit ≤ mantissa

theorem Canonical.of_shape {x : Float} {negative : Bool} {mantissa : Nat} {exponent : Int}
    (h : shape x = .finite negative mantissa exponent) : Canonical mantissa exponent := by
  unfold shape at h
  simp only at h
  have fraction : x.toBits.toNat % hiddenBit < hiddenBit := Nat.mod_lt _ (by decide)
  have biased : x.toBits.toNat / hiddenBit % exponentCount < exponentCount :=
    Nat.mod_lt _ (by decide)
  simp only [exponentCount] at biased
  split at h
  case isTrue => split at h <;> cases h
  case isFalse other =>
    split at h
    case isTrue =>
      cases h
      exact ⟨by omega, by omega, by omega, fun above => absurd above (by omega)⟩
    case isFalse =>
      cases h
      simp only [exponentCount] at *
      exact ⟨by omega, by omega, by omega, fun _ => by omega⟩

def bitsOf (negative : Bool) (mantissa : Nat) (exponent : Int) : Nat :=
  (exponent + 1074).toNat * hiddenBit + mantissa + if negative then signBit else 0

theorem eq_ofBits {x : Float} {negative : Bool} {mantissa : Nat} {exponent : Int}
    (h : shape x = .finite negative mantissa exponent) :
    x = Float.ofBits (UInt64.ofNat (bitsOf negative mantissa exponent)) := by
  suffices bits : x.toBits.toNat = bitsOf negative mantissa exponent by
    rw [← bits, UInt64.ofNat_toNat, Float.ofBits_toBits]
  have bound := x.toBits.toNat_lt
  unfold shape at h
  simp only at h
  unfold bitsOf
  split at h
  case isTrue => split at h <;> cases h
  case isFalse =>
    split at h
    all_goals
      cases h
      simp only [hiddenBit, exponentCount, signBit, beq_iff_eq] at *
      split <;> omega

theorem toNat_unpackMantissa (b : BitVec 64) :
    (@unpackMantissa .binary64 b).toNat = b.toNat % hiddenBit := by
  simp [unpackMantissa, hiddenBit, BitVec.extractLsb]

theorem toNat_unpackExponent (b : BitVec 64) :
    (@unpackExponent .binary64 b).toNat = b.toNat / hiddenBit % exponentCount := by
  simp [unpackExponent, hiddenBit, BitVec.extractLsb, exponentCount, Nat.shiftRight_eq_div_pow]

theorem eq_nan {x : Float} (h : shape x = .nan) : x = nan := by
  obtain ⟨⟨bits, valid⟩⟩ := x
  have top : bits.toNat / hiddenBit % exponentCount = 2047 ∧ bits.toNat % hiddenBit ≠ 0 := by
    unfold shape at h
    simp only at h
    split at h
    case isTrue top =>
      split at h
      case isTrue => cases h
      case isFalse other => exact ⟨top, other⟩
    case isFalse => split at h <;> cases h
  have exponent : @unpackExponent .binary64 bits.toBitVec = -1#11 :=
    BitVec.eq_of_toNat_eq ((toNat_unpackExponent _).trans top.1)
  have mantissa : @unpackMantissa .binary64 bits.toBitVec ≠ 0#52 := fun zero =>
    top.2 ((toNat_unpackMantissa _).symm.trans (congrArg BitVec.toNat zero))
  have same : bits = 0x7FF8000000000000 :=
    UInt64.toBitVec_inj.mp (valid.eq_packedNaN exponent mantissa)
  subst same
  rfl

theorem eq_infinity {x : Float} {negative : Bool} (h : shape x = .infinite negative) :
    x = infinity negative := by
  have bits : x.toBits.toNat = 2047 * hiddenBit + if negative then signBit else 0 := by
    have bound := x.toBits.toNat_lt
    unfold shape at h
    simp only at h
    split at h
    case isTrue =>
      split at h
      case isTrue =>
        cases h
        simp only [hiddenBit, exponentCount, signBit, beq_iff_eq] at *
        split <;> omega
      case isFalse => cases h
    case isFalse => split at h <;> cases h
  have top : nearestBits (power 2 1025) 1 = 2047 * hiddenBit := by decide +kernel
  have some_ : power 2 1025 ≠ 0 := by decide +kernel
  rw [← Float.ofBits_toBits x, ← UInt64.ofNat_toNat (x := x.toBits), bits, infinity, nearest,
    if_neg some_, top]

end CallTimeline.Double
