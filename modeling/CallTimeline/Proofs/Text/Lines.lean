import CallTimeline.Proofs.Text.Trim
import CallTimeline.Text.Lines

namespace CallTimeline.Text

theorem cutLines_go_flatten (ends : Char → Bool) (text line : List Char) (done : List (List Char)) :
    (cutLines.go ends line done text).flatten = done.reverse.flatten ++ line.reverse ++ text := by
  induction text generalizing line done with
  | nil => cases line <;> simp [cutLines.go]
  | cons c rest ih =>
      rw [cutLines.go]
      split
      · simp [ih]
      · simp [ih]

theorem cutLines_flatten (ends : Char → Bool) (text : List Char) :
    (cutLines ends text).flatten = text := by
  simp [cutLines, cutLines_go_flatten]

theorem unifyLineEnds_of_not_mem {text : List Char} (clean : '\r' ∉ text) :
    unifyLineEnds text = text := by
  have kept (done text : List Char) (clean : '\r' ∉ text) :
      unifyLineEnds.go done text = done.reverse ++ text := by
    induction text generalizing done with
    | nil => exact (List.append_nil _).symm
    | cons c rest ih =>
        obtain ⟨ne, later⟩ := not_or.mp (mt List.mem_cons.mpr clean)
        rw [unifyLineEnds.go, ih _ later, List.reverse_cons, List.append_assoc,
          List.singleton_append]
        · exact fun _ same _ => ne same.symm
        · exact fun same => ne same.symm
  exact kept [] text clean

theorem infix_of_mem_cutLines {ends : Char → Bool} {text line : List Char}
    (member : line ∈ cutLines ends text) : line <:+: text := by
  rw [← cutLines_flatten ends text]
  exact List.infix_of_mem_flatten member

theorem cutLines_of_open {ends : Char → Bool} {text : List Char} (filled : text ≠ [])
    (open_ : ∀ c ∈ text, ends c = false) : cutLines ends text = [text] := by
  have kept (line text : List Char) (open_ : ∀ c ∈ text, ends c = false) :
      cutLines.go ends line [] text = cutLines.go ends (text.reverse ++ line) [] [] := by
    induction text generalizing line with
    | nil => rfl
    | cons c rest ih =>
        obtain ⟨here, later⟩ := List.forall_mem_cons.mp open_
        rw [cutLines.go.eq_2, here, Bool.false_and, if_neg Bool.false_ne_true, ih _ later,
          List.reverse_cons, List.append_assoc]
        rfl
  rw [cutLines, kept [] text open_, cutLines.go]
  simp [filled]

theorem cutLines_go_congr {ends ends' : Char → Bool} {text : List Char}
    (same : ∀ c ∈ text, ends c = ends' c) (line : List Char) (done : List (List Char)) :
    cutLines.go ends line done text = cutLines.go ends' line done text := by
  induction text generalizing line done with
  | nil => rfl
  | cons c rest ih =>
      have later := ih fun d member => same d (List.mem_cons_of_mem c member)
      rw [cutLines.go, cutLines.go, same c List.mem_cons_self, later, later]

theorem cutLines_congr {ends ends' : Char → Bool} {text : List Char}
    (same : ∀ c ∈ text, ends c = ends' c) : cutLines ends text = cutLines ends' text :=
  cutLines_go_congr same [] []

theorem not_mem_dropLast_of_mem_go {ends : Char → Bool} (feed : ends '\n' = true)
    {text line : List Char} {done : List (List Char)} (open_ : '\n' ∉ line)
    (closed : ∀ cut ∈ done, '\n' ∉ cut.dropLast) :
    ∀ cut ∈ cutLines.go ends line done text, '\n' ∉ cut.dropLast := by
  have close {line : List Char} {done : List (List Char)} (open_ : '\n' ∉ line.tail)
      (closed : ∀ cut ∈ done, '\n' ∉ cut.dropLast) :
      ∀ cut ∈ line.reverse :: done, '\n' ∉ cut.dropLast := by
    rintro cut member
    rcases List.mem_cons.mp member with rfl | earlier
    · simpa using open_
    · exact closed cut earlier
  induction text generalizing line done with
  | nil =>
      rw [cutLines.go]
      intro cut member
      rw [List.mem_reverse] at member
      split at member
      · exact closed cut member
      · exact close (fun inside => open_ (List.mem_of_mem_tail inside)) closed cut member
  | cons c rest ih =>
      rw [cutLines.go]
      split
      case isTrue => exact ih (by simp) (close open_ closed)
      case isFalse goesOn =>
        refine ih (fun member => ?_) closed
        rcases List.mem_cons.mp member with same | inside
        · simp [← same, feed] at goesOn
        · exact open_ inside

theorem prefix_chomp (line : List Char) : chomp line <+: line :=
  dropEndWhile_prefix _ line

theorem chomp_of_chomp_eq_append {line before rest : List Char} (ne : rest ≠ [])
    (line_eq : chomp line = before ++ rest) : chomp rest = rest := by
  apply dropEndWhile_of_getLast?
  intro c last
  have member : c ∈ (chomp line).getLast? := by
    rwa [line_eq, List.getLast?_append_of_ne_nil before ne]
  exact getLast?_dropEndWhile member

theorem not_mem_chomp_of_mem_cutLines {ends : Char → Bool} (feed : ends '\n' = true)
    {text line : List Char} (member : line ∈ cutLines ends text) : '\n' ∉ chomp line := by
  have inside : '\n' ∉ line.dropLast :=
    not_mem_dropLast_of_mem_go feed (by simp) (by simp) line member
  obtain ⟨behind, line_eq⟩ := prefix_chomp line
  intro left
  rcases List.eq_nil_or_concat' (chomp line) with none | ⟨start, last, chomp_eq⟩
  · rw [none] at left
    cases left
  · have isLast : last ∈ (chomp line).getLast? := by simp [chomp_eq]
    have noEnd : (last == '\r' || last == '\n') = false := getLast?_dropEndWhile isLast
    rw [chomp_eq] at left line_eq
    rcases List.mem_append.mp left with early | late
    · apply inside
      rw [← line_eq, List.append_assoc, List.dropLast_append_of_ne_nil (by simp)]
      exact List.mem_append_left _ early
    · simp [← List.mem_singleton.mp late] at noEnd

theorem occurs_iff_infix {pattern text : List Char} :
    occurs pattern text = true ↔ pattern <:+: text := by
  induction text with
  | nil => simp [occurs]
  | cons c rest ih =>
      rw [occurs, Bool.or_eq_true, ih, List.isPrefixOf_iff_prefix, List.infix_cons_iff]

theorem occurs_of_mem_sourceLines {pattern text line : List Char}
    (member : line ∈ sourceLines text) (found : pattern <:+: chomp line) :
    occurs pattern text = true :=
  occurs_iff_infix.mpr
    ((found.trans (prefix_chomp line).isInfix).trans (infix_of_mem_cutLines member))

end CallTimeline.Text
