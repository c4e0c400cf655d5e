import CallTimeline.Json.Reader
import CallTimeline.Json.Writer

namespace CallTimeline.Json

theorem hexValue?_digitChar {digit : Nat} (below : digit < 16) :
    hexValue? digit.digitChar = some digit := by
  revert digit
  decide

theorem hexPadded_four {n : Nat} (below : n < 0x10000) :
    Text.hexPadded 4 n = [(n / 4096).digitChar, (n / 256 % 16).digitChar, (n / 16 % 16).digitChar,
      (n % 16).digitChar] := by
  have last (m : Nat) (more : 16 ≤ m) :
      Nat.toDigits 16 m = Nat.toDigits 16 (m / 16) ++ [(m % 16).digitChar] :=
    Nat.toDigits_of_base_le (by decide) more
  have single (m : Nat) (few : m < 16) : Nat.toDigits 16 m = [m.digitChar] :=
    Nat.toDigits_of_lt_base few
  unfold Text.hexPadded
  by_cases one : n < 16
  · rw [single n one, show n / 4096 = 0 by omega, show n / 256 % 16 = 0 by omega,
      show n / 16 % 16 = 0 by omega, Nat.mod_eq_of_lt one]
    rfl
  by_cases two : n < 256
  · rw [last n (by omega), single (n / 16) (by omega), show n / 4096 = 0 by omega,
      show n / 256 % 16 = 0 by omega, show n / 16 % 16 = n / 16 by omega]
    rfl
  by_cases three : n < 4096
  · rw [last n (by omega), last (n / 16) (by omega), single (n / 16 / 16) (by omega),
      show n / 4096 = 0 by omega, show n / 256 % 16 = n / 16 / 16 by omega]
    rfl
  · rw [last n (by omega), last (n / 16) (by omega), last (n / 16 / 16) (by omega),
      single (n / 16 / 16 / 16) (by omega), show n / 4096 = n / 16 / 16 / 16 by omega,
      show n / 256 % 16 = n / 16 / 16 % 16 by omega]
    rfl

theorem unit?_hexPadded {n : Nat} (below : n < 0x10000) : unit? (Text.hexPadded 4 n) = some n := by
  rw [hexPadded_four below]
  simp only [unit?, List.foldlM_cons, List.foldlM_nil,
    hexValue?_digitChar (Nat.mod_lt _ (by decide : 0 < 16)),
    hexValue?_digitChar (by omega : n / 4096 < 16)]
  simp
  omega

def unitsOf (c : Char) : List Nat :=
  if c.toNat < 0x10000 then [c.toNat]
  else [0xD800 + (c.toNat - 0x10000) / 0x400, 0xDC00 + (c.toNat - 0x10000) % 0x400]

theorem toNat_valid (c : Char) : c.toNat < 0xD800 ∨ 0xDFFF < c.toNat ∧ c.toNat < 0x110000 :=
  c.valid

theorem joinUnits_append (c : Char) (units : List Nat) :
    joinUnits (unitsOf c ++ units) = c :: joinUnits units := by
  have valid := toNat_valid c
  unfold unitsOf
  split
  case isTrue =>
    have plain : (isHigh c.toNat || isLow c.toNat) = false := by
      simp only [isHigh, isLow, Bool.or_eq_false_iff, Bool.and_eq_false_iff,
        decide_eq_false_iff_not]
      omega
    obtain ⟨notHigh, notLow⟩ := Bool.or_eq_false_iff.mp plain
    cases units with
    | nil => simp [joinUnits, notHigh, notLow]
    | cons next units => simp [joinUnits, notHigh, notLow]
  case isFalse =>
    have high : isHigh (0xD800 + (c.toNat - 0x10000) / 0x400) = true := by
      simp only [isHigh, Bool.and_eq_true, decide_eq_true_eq]
      omega
    have low : isLow (0xDC00 + (c.toNat - 0x10000) % 0x400) = true := by
      simp only [isLow, Bool.and_eq_true, decide_eq_true_eq]
      omega
    have whole : 0x10000 + (0xD800 + (c.toNat - 0x10000) / 0x400 - 0xD800) * 0x400 +
        (0xDC00 + (c.toNat - 0x10000) % 0x400 - 0xDC00) = c.toNat := by
      omega
    rw [List.cons_append, List.cons_append, List.nil_append, joinUnits, high, low, Bool.and_self,
      if_pos rfl,
      whole, Char.ofNat_toNat]

theorem joinUnits_flatMap (text : List Char) : joinUnits (text.flatMap unitsOf) = text := by
  induction text with
  | nil => rfl
  | cons c text ih => rw [List.flatMap_cons, joinUnits_append, ih]

theorem readString_unitEscape {unit : Nat} (below : unit < 0x10000) (done : List Nat)
    (rest : List Char) :
    readString done (unitEscape unit ++ rest) = readString (unit :: done) rest := by
  have value := unit?_hexPadded below
  rw [unitEscape]
  rw [hexPadded_four below] at value ⊢
  simp only [List.cons_append, List.nil_append]
  rw [readString, value]

theorem readString_plain {c : Char} (printed : 0x20 ≤ c.toNat) (other : c ≠ '"' ∧ c ≠ '\\')
    (done : List Nat) (rest : List Char) :
    readString done (c :: rest) = readString (c.toNat :: done) rest := by
  rw [readString]
  · rw [if_neg (by simp [other.2]; omega)]
  · exact other.1
  · intro a b d e rest' same
    exact absurd same other.2
  · intro a rest' same
    exact absurd same other.2

theorem readString_letter {c letter : Char} (stands : escapedLetter? letter = some c)
    (done : List Nat) (rest : List Char) :
    readString done ('\\' :: letter :: rest) = readString (c.toNat :: done) rest := by
  rw [readString, stands]
  rintro _ _ _ _ _ ⟨⟩
  cases stands

theorem readString_escapeChar (c : Char) (done : List Nat) (rest : List Char) :
    readString done (escapeChar c ++ rest) = readString ((unitsOf c).reverse ++ done) rest := by
  have valid := toNat_valid c
  have one (small : c.toNat < 0x10000) : (unitsOf c).reverse ++ done = c.toNat :: done := by
    rw [unitsOf, if_pos small]
    rfl
  unfold escapeChar
  split
  case isTrue quoted =>
    rcases Bool.or_eq_true_iff.mp quoted with same | same <;> obtain rfl := eq_of_beq same <;>
      exact readString_letter rfl done rest
  split
  case isTrue same => obtain rfl := eq_of_beq same; exact readString_letter rfl done rest
  split
  case isTrue same => obtain rfl := eq_of_beq same; exact readString_letter rfl done rest
  split
  case isTrue same => obtain rfl := eq_of_beq same; exact readString_letter rfl done rest
  split
  case isTrue same =>
    obtain rfl : c = '\x08' := Char.toNat_inj.mp (eq_of_beq same)
    exact readString_letter rfl done rest
  split
  case isTrue same =>
    obtain rfl : c = '\x0c' := Char.toNat_inj.mp (eq_of_beq same)
    exact readString_letter rfl done rest
  case isFalse quoted _ _ _ _ _ =>
    simp only [Bool.or_eq_true, beq_iff_eq, not_or] at quoted
    split
    case isTrue printed =>
      simp only [Bool.and_eq_true, decide_eq_true_eq] at printed
      rw [one (by omega)]
      exact readString_plain printed.1 quoted done rest
    case isFalse =>
      split
      case isTrue small => rw [readString_unitEscape small, one small]
      case isFalse large =>
        rw [List.append_assoc, readString_unitEscape (by omega), readString_unitEscape (by omega),
          unitsOf, if_neg large]
        rfl

theorem readString_flatMap (text : List Char) (done : List Nat) (rest : List Char) :
    readString done (text.flatMap escapeChar ++ '"' :: rest) =
      .ok (String.ofList (joinUnits (done.reverse ++ text.flatMap unitsOf)), rest) := by
  induction text generalizing done with
  | nil => rw [List.flatMap_nil, List.nil_append, List.flatMap_nil, List.append_nil, readString]
  | cons c text ih =>
      rw [List.flatMap_cons, List.append_assoc, readString_escapeChar, ih, List.flatMap_cons,
        List.reverse_append, List.reverse_reverse, List.append_assoc]

theorem readString_writeString (s : String) (rest : List Char) :
    readString [] (s.toList.flatMap escapeChar ++ '"' :: rest) = .ok (s, rest) := by
  rw [readString_flatMap, List.reverse_nil, List.nil_append, joinUnits_flatMap,
    String.ofList_toList]

end CallTimeline.Json
