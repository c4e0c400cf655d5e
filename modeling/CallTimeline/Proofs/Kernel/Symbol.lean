import CallTimeline.Kernel.Symbol
import Mathlib.Data.List.Infix
import Mathlib.Data.List.TakeWhile

namespace CallTimeline.Kernel

def BeginsClone (text : List Char) : Prop :=
  ∃ mark ∈ cloneMarks, mark.toList <+: text

def Unmarked (text : List Char) : Prop :=
  ∀ mark ∈ cloneMarks, ¬ mark.toList <:+: text

/-- The text before the first mark of a clone, or all of it if there is none. -/
inductive CutAtClone : List Char → List Char → Prop
  | whole {text : List Char} (unmarked : Unmarked text) : CutAtClone text text
  | before {base rest : List Char} (begins : BeginsClone rest)
      (first : ∀ front back, base ++ rest = front ++ back → BeginsClone back →
        base.length ≤ front.length) :
      CutAtClone (base ++ rest) base

variable {text base : List Char}

theorem mark_ne_nil {mark : String} (member : mark ∈ cloneMarks) : mark.toList ≠ [] := by
  revert mark
  decide

theorem unmarked_of_not_mem (noDot : '.' ∉ text) : Unmarked text := by
  have dotted : ∀ mark ∈ cloneMarks, '.' ∈ mark.toList := by decide
  exact fun mark member here => noDot (here.subset (dotted mark member))

theorem unmarked_cons {c : Char} :
    Unmarked (c :: text) ↔ ¬ BeginsClone (c :: text) ∧ Unmarked text := by
  simp only [Unmarked, BeginsClone, List.infix_cons_iff, not_or, not_exists, not_and, forall_and]

theorem beginsClone_of_isCloneSuffix (suffix : isCloneSuffix text = true) : BeginsClone text := by
  obtain ⟨mark, member, ends⟩ := List.any_eq_true.mp suffix
  refine ⟨mark, member, ?_⟩
  cases split : mark.toList.isPrefixOf? text with
  | none => simp [split] at ends
  | some rest => exact ⟨rest, List.isPrefixOf?_eq_some_iff_append_eq.mp split⟩

theorem dropWhile_eq_nil_of_oneLine (oneLine : '\n' ∉ text) : text.dropWhile (· != '\n') = [] := by
  rw [List.dropWhile_eq_nil_iff]
  intro c member
  exact bne_iff_ne.mpr fun feed => oneLine (feed ▸ member)

theorem isCloneSuffix_of_beginsClone (oneLine : '\n' ∉ text) (begins : BeginsClone text) :
    isCloneSuffix text = true := by
  obtain ⟨mark, member, rest, rfl⟩ := begins
  refine List.any_eq_true.mpr ⟨mark, member, ?_⟩
  have split : mark.toList.isPrefixOf? (mark.toList ++ rest) = some rest :=
    List.isPrefixOf?_eq_some_iff_append_eq.mpr rfl
  have toEnd := dropWhile_eq_nil_of_oneLine fun feed => oneLine (List.mem_append_right _ feed)
  simp [split, toEnd]

theorem cutClone_of_unmarked (unmarked : Unmarked text) : cutClone text = text := by
  induction text with
  | nil => rfl
  | cons c text ih =>
      obtain ⟨notHere, later⟩ := unmarked_cons.mp unmarked
      rw [cutClone, if_neg (mt beginsClone_of_isCloneSuffix notHere), ih later]

theorem cutAtClone_cutClone (oneLine : '\n' ∉ text) : CutAtClone text (cutClone text) := by
  induction text with
  | nil => exact .whole fun mark member here =>
      mark_ne_nil member (List.eq_nil_of_infix_nil here)
  | cons c text ih =>
      rw [cutClone]
      split
      case isTrue suffix =>
        rw [dropWhile_eq_nil_of_oneLine oneLine]
        exact @CutAtClone.before [] _ (beginsClone_of_isCloneSuffix suffix) fun _ _ _ _ =>
          Nat.zero_le _
      case isFalse noSuffix =>
        have notHere := mt (isCloneSuffix_of_beginsClone oneLine) noSuffix
        have later := ih fun feed => oneLine (List.mem_cons_of_mem c feed)
        generalize cutClone text = base at later
        cases later with
        | whole unmarked => exact .whole (unmarked_cons.mpr ⟨notHere, unmarked⟩)
        | @before _ rest begins first =>
            refine @CutAtClone.before (c :: base) rest begins fun front back same marked => ?_
            cases front with
            | nil =>
                obtain rfl : c :: (base ++ rest) = back := same
                exact absurd marked notHere
            | cons d front =>
                exact Nat.succ_le_succ (first front back (List.cons.inj same).2 marked)

theorem CutAtClone.unmarked_base (cut : CutAtClone text base) : Unmarked base := by
  cases cut with
  | whole unmarked => exact unmarked
  | @before _ rest _ first =>
      rintro mark member ⟨front, back, rfl⟩
      have marked : BeginsClone (mark.toList ++ back ++ rest) :=
        ⟨mark, member, back ++ rest, (List.append_assoc ..).symm⟩
      have early := first front _ (by simp only [List.append_assoc]) marked
      have filled := List.length_pos_iff.mpr (mark_ne_nil member)
      simp only [List.length_append] at early
      omega

theorem toList_baseSymbol (function : String) :
    (baseSymbol function).toList = cutClone function.toList :=
  String.toList_ofList

variable {function : String}

theorem cutAtClone_baseSymbol (oneLine : '\n' ∉ function.toList) :
    CutAtClone function.toList (baseSymbol function).toList := by
  rw [toList_baseSymbol]
  exact cutAtClone_cutClone oneLine

theorem baseSymbol_of_unmarked (unmarked : Unmarked function.toList) :
    baseSymbol function = function := by
  rw [baseSymbol, cutClone_of_unmarked unmarked, String.ofList_toList]

theorem baseSymbol_baseSymbol (oneLine : '\n' ∉ function.toList) :
    baseSymbol (baseSymbol function) = baseSymbol function :=
  baseSymbol_of_unmarked (cutAtClone_baseSymbol oneLine).unmarked_base

end CallTimeline.Kernel
