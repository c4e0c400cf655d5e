import CallTimeline.Proofs.Json.RoundTrip
import CallTimeline.Proofs.Text.Lines

namespace CallTimeline.Json

def IsPlain (c : Char) : Prop :=
  c = '\n' ∨ 0x20 ≤ c.toNat ∧ c.toNat ≤ 0x7E

instance : DecidablePred IsPlain :=
  fun c => inferInstanceAs (Decidable (c = '\n' ∨ 0x20 ≤ c.toNat ∧ c.toNat ≤ 0x7E))

theorem isPlain_of_isDigit {c : Char} (digit : c.isDigit = true) : IsPlain c := by
  have low : '0'.toNat = 48 := rfl
  have high : '9'.toNat = 57 := rfl
  have bounds := Char.isDigit_iff_toNat.mp digit
  exact .inr (by omega)

theorem isPlain_sign (negative : Bool) : ∀ c ∈ if negative then ['-'] else [], IsPlain c := by
  cases negative <;> simp [IsPlain]

theorem isPlain_toString (value : Int) : ∀ c ∈ (toString value).toList, IsPlain c := by
  have sign := isPlain_sign (decide (value < 0))
  simp only [decide_eq_true_eq] at sign
  rw [toList_toString]
  refine List.forall_mem_append.mpr ⟨sign, fun c member => ?_⟩
  exact isPlain_of_isDigit (Text.isDigit_of_mem_toDigits member)

theorem isPlain_layout (layout : Double.Layout) (d : Double.Decimal) :
    ∀ c ∈ layout.write d, IsPlain c := by
  have digits : ∀ c ∈ (Double.significant d).1, IsPlain c := fun c member =>
    isPlain_of_isDigit (Double.isDigit_of_mem_significant member)
  have zeros (count : Nat) : ∀ c ∈ List.replicate count '0', IsPlain c := fun c member =>
    isPlain_of_isDigit (isDigit_of_mem_zeros member)
  have exponent (n : Nat) : ∀ c ∈ Nat.toDigits 10 n, IsPlain c := fun c member =>
    isPlain_of_isDigit (Text.isDigit_of_mem_toDigits member)
  rw [Double.Layout.write]
  generalize Double.significant d = parts at digits ⊢
  obtain ⟨kept, first⟩ := parts
  have before (places : Nat) : ∀ c ∈ kept.take places, IsPlain c := fun c member =>
    digits c (List.mem_of_mem_take member)
  have behind (places : Nat) : ∀ c ∈ kept.drop places, IsPlain c := fun c member =>
    digits c (List.mem_of_mem_drop member)
  have marks : IsPlain '0' ∧ IsPlain '.' ∧ IsPlain 'e' ∧ IsPlain '-' ∧ IsPlain '+' := by decide
  obtain ⟨zero, point, e, minus, plus⟩ := marks
  simp only
  split
  case isTrue =>
    split
    case isTrue =>
      simp only [List.cons_append, List.forall_mem_cons, List.forall_mem_append]
      exact ⟨zero, point, zeros _, digits⟩
    case isFalse =>
      simp only [List.forall_mem_cons, List.forall_mem_append]
      refine ⟨⟨before _, zeros _⟩, point, ?_⟩
      split
      · exact List.forall_mem_singleton.mpr zero
      · exact behind _
  case isFalse =>
    simp only [List.forall_mem_cons, List.forall_mem_append]
    refine ⟨⟨before 1, ?_⟩, e, ?_, zeros _, exponent _⟩
    · split
      · exact List.forall_mem_nil _
      · exact List.forall_mem_cons.mpr ⟨point, behind 1⟩
    · split
      · exact minus
      · exact plus

theorem isPlain_writeReal (value : Float) : ∀ c ∈ (writeReal value).toList, IsPlain c := by
  cases shape : Double.shape value with
  | nan =>
      rw [writeReal, Double.write, shape]
      simp [IsPlain]
  | infinite negative =>
      rw [writeReal, Double.write, shape]
      cases negative <;> simp [IsPlain]
  | finite negative mantissa exponent =>
      rw [toList_writeReal shape, digitsOf]
      refine List.forall_mem_append.mpr ⟨isPlain_sign negative, ?_⟩
      split
      · simp [IsPlain]
      · exact isPlain_layout _ _

theorem isPlain_unitEscape {unit : Nat} (below : unit < 0x10000) :
    ∀ c ∈ unitEscape unit, IsPlain c := by
  have digit (n : Nat) (small : n < 16) : IsPlain n.digitChar := by
    revert n
    decide
  have marks : IsPlain '\\' ∧ IsPlain 'u' := by decide
  rw [unitEscape, hexPadded_four below]
  simp only [List.forall_mem_cons]
  exact ⟨marks.1, marks.2, digit _ (by omega), digit _ (by omega), digit _ (by omega),
    digit _ (by omega), List.forall_mem_nil _⟩

theorem isPlain_escapeChar (c : Char) : ∀ d ∈ escapeChar c, IsPlain d := by
  have valid := toNat_valid c
  unfold escapeChar
  split
  case isTrue quoted =>
    rcases Bool.or_eq_true_iff.mp quoted with same | same <;> obtain rfl := eq_of_beq same <;>
      simp [IsPlain]
  iterate 5
    split
    case isTrue => simp [IsPlain]
  split
  case isTrue printed =>
    simp only [Bool.and_eq_true, decide_eq_true_eq] at printed
    exact List.forall_mem_singleton.mpr (.inr printed)
  split
  case isTrue small => exact isPlain_unitEscape small
  case isFalse large =>
    refine List.forall_mem_append.mpr ⟨isPlain_unitEscape ?_, isPlain_unitEscape ?_⟩ <;> omega

theorem isPlain_writeString (s : String) : ∀ c ∈ (writeString s).toList, IsPlain c := by
  have quote : IsPlain '"' := by decide
  have inside : ∀ c ∈ s.toList.flatMap escapeChar, IsPlain c := by
    intro c member
    obtain ⟨written, -, escaped⟩ := List.mem_flatMap.mp member
    exact isPlain_escapeChar written c escaped
  rw [writeString, String.toList_ofList]
  exact List.forall_mem_cons.mpr
    ⟨quote, List.forall_mem_append.mpr ⟨inside, List.forall_mem_singleton.mpr quote⟩⟩

structure Spacing.Plain (spacing : Spacing) : Prop where
  lineBreak : ∀ depth, ∀ c ∈ (spacing.lineBreak depth).toList, IsPlain c
  colon : ∀ c ∈ spacing.colon.toList, IsPlain c

section

variable {spacing : Spacing} (plain : spacing.Plain)

include plain

mutual

theorem isPlain_chars (depth : Nat) (value : Json) : ∀ c ∈ chars spacing depth value, IsPlain c := by
  have marks : IsPlain '[' ∧ IsPlain ']' ∧ IsPlain '\x7b' ∧ IsPlain '\x7d' := by decide
  obtain ⟨opens, closes, opens', closes'⟩ := marks
  match value with
  | null => rw [chars]; simp [IsPlain]
  | bool value => rw [chars]; cases value <;> simp [IsPlain]
  | int value => rw [chars]; exact isPlain_toString value
  | real value => rw [chars]; exact isPlain_writeReal value
  | str value => rw [chars]; exact isPlain_writeString value
  | arr [] => rw [chars]; simp [IsPlain]
  | arr (item :: items) =>
      simp only [chars, List.forall_mem_cons, List.forall_mem_append]
      exact ⟨opens, plain.lineBreak _, isPlain_chars (depth + 1) item,
        isPlain_itemsChars (depth + 1) items, plain.lineBreak _, closes, nofun⟩
  | obj [] => rw [chars]; simp [IsPlain]
  | obj ((key, value) :: fields) =>
      simp only [chars, List.forall_mem_cons, List.forall_mem_append]
      exact ⟨opens', plain.lineBreak _, isPlain_writeString key, plain.colon, isPlain_chars (depth + 1) value,
        isPlain_fieldsChars (depth + 1) fields, plain.lineBreak _, closes', nofun⟩

theorem isPlain_itemsChars (depth : Nat) (items : List Json) :
    ∀ c ∈ itemsChars spacing depth items, IsPlain c := by
  have comma : IsPlain ',' := by decide
  match items with
  | [] => nofun
  | item :: items =>
      simp only [itemsChars, List.forall_mem_cons, List.forall_mem_append]
      exact ⟨comma, plain.lineBreak _, isPlain_chars depth item, isPlain_itemsChars depth items⟩

theorem isPlain_fieldsChars (depth : Nat) (fields : List (String × Json)) :
    ∀ c ∈ fieldsChars spacing depth fields, IsPlain c := by
  have comma : IsPlain ',' := by decide
  match fields with
  | [] => nofun
  | (key, value) :: fields =>
      simp only [fieldsChars, List.forall_mem_cons, List.forall_mem_append]
      exact ⟨comma, plain.lineBreak _, isPlain_writeString key, plain.colon, isPlain_chars depth value,
        isPlain_fieldsChars depth fields⟩

end

end

theorem indentation_plain : indentation.Plain where
  lineBreak depth := by
    simp only [indentation, String.toList_append, String.toList_ofList]
    refine List.forall_mem_append.mpr ⟨by simp [IsPlain], fun c member => ?_⟩
    rw [List.eq_of_mem_replicate member]
    decide
  colon := by simp [indentation, IsPlain]

theorem isPlain_of_mem_indented {value : Json} {c : Char} (member : c ∈ (indented value).toList) :
    IsPlain c := by
  rw [indented_eq, toList_append] at member
  exact isPlain_chars indentation_plain 0 value c member

theorem unifyLineEnds_indented (value : Json) :
    Text.unifyLineEnds (indented value).toList = (indented value).toList :=
  Text.unifyLineEnds_of_not_mem fun member =>
    absurd (isPlain_of_mem_indented member) (by decide)

end CallTimeline.Json
