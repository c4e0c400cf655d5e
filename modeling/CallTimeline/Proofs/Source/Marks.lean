import CallTimeline.Proofs.Source.Strip
import CallTimeline.Proofs.Source.Shape

/-!
# Marks

Whether a window opens a body depends on four characters alone (`isMark`, `opensBody_filter`). So it
does not matter where its lines end (`opensBody_windowCode`), and text without comments and literals
has its marks as they stand (`filter_prefix_codes`).
-/

namespace CallTimeline.Source

open Text

def isMark (c : Char) : Bool :=
  c == '(' || c == ')' || c == '\x7b' || c == ';'

theorem isMark_eq_false_of_isBlank {c : Char} (blank : isBlank c = true) : isMark c = false := by
  by_contra mark
  simp only [isMark, Bool.not_eq_false, Bool.or_eq_true, beq_iff_eq] at mark
  rcases mark with ((rfl | rfl) | rfl) | rfl <;> exact absurd blank (by decide)

theorem IsTerminator.filter_eq_nil {ends : List Char} (h : IsTerminator ends) :
    ends.filter isMark = [] := by
  rw [List.filter_eq_nil_iff]
  intro c member
  rcases h c member with rfl | rfl <;> decide

theorem afterArguments?_filter (depth : Int) (text : List Char) :
    afterArguments? depth (text.filter isMark) =
      (afterArguments? depth text).map (List.filter isMark) := by
  induction text generalizing depth with
  | nil => rfl
  | cons c text ih =>
      cases mark : isMark c with
      | true =>
          rw [List.filter_cons_of_pos mark, afterArguments?, afterArguments?, ih, ih, ih]
          split
          · rfl
          · split
            · split <;> rfl
            · rfl
      | false =>
          obtain ⟨⟨⟨noOpen, noClose⟩, -⟩, -⟩ :
              ((c ≠ '(' ∧ c ≠ ')') ∧ c ≠ '\x7b') ∧ c ≠ ';' := by
            simpa [isMark] using mark
          rw [List.filter_cons_of_neg (by simp [mark]), ih, afterArguments?, if_neg (by simpa),
            if_neg (by simpa)]

theorem opensBody_filter (window : List Char) :
    opensBody (window.filter isMark) = opensBody window := by
  rw [opensBody, opensBody, afterArguments?_filter]
  cases afterArguments? 0 window with
  | none => rfl
  | some rest =>
      have same (c : Char) : decide (isMark c = true ∧ (c == '\x7b' || c == ';') = true) =
          (c == '\x7b' || c == ';') := by
        by_cases stops : c = '\x7b' ∨ c = ';'
        · rcases stops with rfl | rfl <;> decide
        · simp [not_or.mp stops]
      simp only [Option.map_some, List.find?_filter, same]

theorem filter_intercalate (codes : List (List Char)) :
    (['\n'].intercalate codes).filter isMark = codes.flatten.filter isMark := by
  have feed : ['\n'].filter isMark = [] := by decide
  induction codes with
  | nil => rfl
  | cons code codes ih =>
      cases codes with
      | nil => simp
      | cons next codes =>
          rw [List.intercalate_cons_cons, List.filter_append, List.filter_append, feed, ih,
            List.flatten_cons (l := code), List.filter_append, List.append_nil]

theorem opensBody_windowCode (inComment : Bool) (lines : List (List Char)) :
    opensBody (windowCode inComment lines) =
      opensBody ((codes inComment lines).flatten.filter isMark) := by
  rw [← opensBody_filter, windowCode_eq, filter_intercalate]

theorem filter_strip_chomp (inComment : Bool) (line : List Char) :
    (strip inComment (chomp line)).1.filter isMark = (strip inComment line).1.filter isMark ∧
      (strip inComment (chomp line)).2 = (strip inComment line).2 := by
  obtain ⟨kept, isTerminator, line_eq⟩ := strip_line inComment line
  rw [line_eq, List.filter_append, isTerminator.filter_eq_nil, List.append_nil]
  exact ⟨rfl, rfl⟩

theorem filter_prefix_codes {start : List Char} {lines : List (List Char)}
    (plain : ∀ c ∈ start, isPlain c = true) (initial : start <+: lines.flatten) :
    start.filter isMark <+: (codes false lines).flatten.filter isMark := by
  induction lines generalizing start with
  | nil =>
      rw [List.flatten_nil, List.prefix_nil] at initial
      rw [initial]
      exact List.nil_prefix
  | cons line lines ih =>
      obtain ⟨marks_eq, after_eq⟩ := filter_strip_chomp false line
      rw [codes, List.flatten_cons, List.filter_append, marks_eq, after_eq]
      rw [List.flatten_cons] at initial
      rcases List.prefix_or_prefix_of_prefix initial (List.prefix_append line _) with within | whole
      · obtain ⟨rest, rfl⟩ := within
        rw [strip_append plain, List.filter_append, List.append_assoc]
        exact List.prefix_append _ _
      · obtain ⟨rest, rfl⟩ := whole
        obtain ⟨plain, later⟩ := List.forall_mem_append.mp plain
        have whole := strip_append plain []
        rw [List.append_nil, strip_nil, List.append_nil] at whole
        rw [whole, List.filter_append, List.prefix_append_right_inj]
        exact ih later ((List.prefix_append_right_inj line).mp initial)

end CallTimeline.Source
