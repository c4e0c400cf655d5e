import CallTimeline.Proofs.Source.Braces
import CallTimeline.Proofs.Source.Window

namespace CallTimeline.Source

open Text

def IsTerminator (text : List Char) : Prop :=
  ∀ c ∈ text, c = '\r' ∨ c = '\n'

theorem IsTerminator.tail {c : Char} {text : List Char} (h : IsTerminator (c :: text)) :
    IsTerminator text :=
  fun d member => h d (List.mem_cons_of_mem c member)

theorem IsTerminator.not_mem {c : Char} {text : List Char} (h : IsTerminator text)
    (isReturn : c ≠ '\r') (isFeed : c ≠ '\n') : c ∉ text := by
  intro member
  rcases h c member with rfl | rfl
  · exact isReturn rfl
  · exact isFeed rfl

theorem chomp_append_terminator (line : List Char) :
    ∃ ends, line = chomp line ++ ends ∧ IsTerminator ends := by
  obtain ⟨ends, line_eq, dropped⟩ := exists_dropEndWhile (fun c => c == '\r' || c == '\n') line
  exact ⟨ends, line_eq, fun c member => by simpa using dropped c member⟩

theorem head?_append_terminator {c : Char} {text ends : List Char} (h : IsTerminator ends)
    (isReturn : c ≠ '\r') (isFeed : c ≠ '\n') (first : (text ++ ends).head? = some c) :
    text.head? = some c := by
  cases text with
  | nil => exact absurd (List.mem_of_head? first) (h.not_mem isReturn isFeed)
  | cons d text => exact first

theorem afterComment?_cons {c : Char} {text : List Char} (other : c = '*' → text.head? ≠ some '/') :
    afterComment? (c :: text) = afterComment? text := by
  rw [afterComment?]
  rintro rest rfl rfl
  exact other rfl rfl

theorem afterComment?_terminator {ends : List Char} (h : IsTerminator ends) :
    afterComment? ends = none := by
  induction ends with
  | nil => rfl
  | cons c ends ih =>
      rw [afterComment?_cons, ih h.tail]
      rintro rfl
      exact absurd List.mem_cons_self (h.not_mem (by decide) (by decide))

theorem afterComment?_append {ends : List Char} (h : IsTerminator ends) (text : List Char) :
    afterComment? (text ++ ends) = (afterComment? text).map (· ++ ends) := by
  induction text with
  | nil => exact afterComment?_terminator h
  | cons c text ih =>
      by_cases closes : c = '*' ∧ text.head? = some '/'
      · obtain ⟨rfl, first⟩ := closes
        obtain ⟨rest, rfl⟩ := List.head?_eq_some_iff.mp first
        rfl
      · rw [List.cons_append, afterComment?_cons, ih, afterComment?_cons]
        · exact fun star first => closes ⟨star, first⟩
        · intro star first
          exact closes ⟨star, head?_append_terminator h (by decide) (by decide) first⟩

theorem afterLiteral_cons {quote c : Char} {text : List Char} (other : c = '\\' → text = []) :
    afterLiteral quote (c :: text) = if c == quote then text else afterLiteral quote text := by
  rw [afterLiteral]
  rintro d rest rfl rfl
  cases other rfl

theorem afterLiteral_terminator {quote : Char} {ends : List Char} (h : IsTerminator ends)
    (isQuote : quote = '"' ∨ quote = '\'') : afterLiteral quote ends = [] := by
  induction ends with
  | nil => rfl
  | cons c ends ih =>
      have other : c ≠ '\\' ∧ c ≠ quote := by
        rcases h c List.mem_cons_self with rfl | rfl <;> rcases isQuote with rfl | rfl <;> decide
      rw [afterLiteral_cons fun same => absurd same other.1, if_neg (by simpa using other.2),
        ih h.tail]

theorem afterLiteral_append {quote : Char} {ends : List Char} (h : IsTerminator ends)
    (isQuote : quote = '"' ∨ quote = '\'') (text : List Char) :
    ∃ kept, IsTerminator kept ∧
      afterLiteral quote (text ++ ends) = afterLiteral quote text ++ kept := by
  fun_induction afterLiteral quote text with
  | case1 => exact ⟨[], by simp [IsTerminator], afterLiteral_terminator h isQuote⟩
  | case2 c rest ih => exact ih
  | case3 c rest other closes =>
      have same : c = quote := by simpa using closes
      refine ⟨ends, h, ?_⟩
      rw [List.cons_append, afterLiteral_cons, if_pos closes]
      rintro rfl
      subst same
      rcases isQuote with isQuote | isQuote <;> cases isQuote
  | case4 c rest other open_ ih =>
      by_cases escapes : c = '\\' ∧ rest = []
      · -- The backslash at the end takes the first character of the terminator with it.
        obtain ⟨rfl, rfl⟩ := escapes
        refine ⟨[], by simp [IsTerminator], ?_⟩
        cases ends with
        | nil => simp [afterLiteral]
        | cons d ends => simpa [afterLiteral] using afterLiteral_terminator h.tail isQuote
      · obtain ⟨kept, isTerminator, rest_eq⟩ := ih
        refine ⟨kept, isTerminator, ?_⟩
        rw [List.cons_append, afterLiteral_cons, if_neg open_, rest_eq]
        rintro rfl
        cases rest with
        | nil => exact absurd ⟨rfl, rfl⟩ escapes
        | cons d rest => exact absurd rfl (other d rest rfl)

theorem strip_comment {line rest : List Char} (closed : afterComment? line = some rest) :
    strip true line = strip false rest := by
  rw [strip.eq_def, if_pos rfl]
  split
  case h_1 found => rw [Option.some.inj (closed.symm.trans found)]
  case h_2 found =>
    rw [closed] at found
    cases found

theorem strip_openComment {line : List Char} (unclosed : afterComment? line = none) :
    strip true line = ([], true) := by
  rw [strip.eq_def, if_pos rfl]
  split
  case h_1 found =>
    rw [unclosed] at found
    cases found
  case h_2 => rfl

theorem strip_lineComment (rest : List Char) : strip false ('/' :: '/' :: rest) = ([], false) := by
  rw [strip.eq_def]
  rfl

theorem strip_blockComment (rest : List Char) :
    strip false ('/' :: '*' :: rest) = strip true rest := by
  rw [strip.eq_def]
  rfl

theorem strip_literal {quote : Char} (isQuote : quote = '"' ∨ quote = '\'') (rest : List Char) :
    strip false (quote :: rest) = strip false (afterLiteral quote rest) := by
  rcases isQuote with rfl | rfl
  · rw [strip.eq_def]
    rfl
  · rw [strip.eq_def]
    rfl

theorem strip_code {c : Char} {rest : List Char} (noLiteral : ¬ (c = '"' ∨ c = '\''))
    (noComment : c = '/' → rest.head? ≠ some '/' ∧ rest.head? ≠ some '*') :
    strip false (c :: rest) = (c :: (strip false rest).1, (strip false rest).2) := by
  by_cases slash : c = '/'
  · subst slash
    obtain ⟨noLine, noBlock⟩ := noComment rfl
    rw [strip.eq_def]
    simp only [Bool.false_eq_true, if_false]
    split
    case h_1 eq => cases eq
    case h_2 eq =>
      cases eq
      exact absurd rfl noLine
    case h_3 eq =>
      cases eq
      exact absurd rfl noBlock
    case h_4 eq =>
      cases eq
      rfl
  · rw [not_or] at noLiteral
    exact strip_cons (by simp [isPlain, slash, noLiteral]) rest

theorem strip_nil : strip false [] = ([], false) := by
  rw [strip.eq_def]
  rfl

theorem strip_terminator {ends : List Char} (h : IsTerminator ends) :
    strip false ends = (ends, false) := by
  have plain : ∀ c ∈ ends, isPlain c = true := by
    intro c member
    rcases h c member with rfl | rfl <;> decide
  have whole := strip_append plain []
  rwa [List.append_nil, strip_nil, List.append_nil] at whole

theorem strip_append_terminator {ends : List Char} (h : IsTerminator ends) (inComment : Bool)
    (text : List Char) :
    ∃ kept, IsTerminator kept ∧ strip inComment (text ++ ends) =
      ((strip inComment text).1 ++ kept, (strip inComment text).2) := by
  have nothing : IsTerminator [] := by simp [IsTerminator]
  -- What is left of the terminator changes where a literal takes a part of it.
  fun_induction strip inComment text generalizing ends with
  | case1 line rest closed ih =>
      have closed' : afterComment? (line ++ ends) = some (rest ++ ends) := by
        rw [afterComment?_append h, closed, Option.map_some]
      rw [strip_comment closed']
      exact ih h
  | case2 line unclosed =>
      have unclosed' : afterComment? (line ++ ends) = none := by
        rw [afterComment?_append h, unclosed, Option.map_none]
      exact ⟨[], nothing, strip_openComment unclosed'⟩
  | case3 inComment outside =>
      obtain rfl : inComment = false := by simpa using outside
      exact ⟨ends, h, strip_terminator h⟩
  | case4 inComment outside rest =>
      obtain rfl : inComment = false := by simpa using outside
      exact ⟨[], nothing, strip_lineComment (rest ++ ends)⟩
  | case5 inComment outside rest ih =>
      obtain rfl : inComment = false := by simpa using outside
      rw [List.cons_append, List.cons_append, strip_blockComment]
      exact ih h
  | case6 inComment outside quote rest _ _ quotes ih =>
      obtain rfl : inComment = false := by simpa using outside
      have isQuote : quote = '"' ∨ quote = '\'' := by simpa using quotes
      obtain ⟨more, more_ends, behind⟩ := afterLiteral_append h isQuote rest
      rw [List.cons_append, strip_literal isQuote, behind]
      exact ih more_ends
  | case7 inComment outside c rest noLine noBlock quotes code after rest_eq ih =>
      obtain rfl : inComment = false := by simpa using outside
      obtain ⟨kept, kept_ends, append_eq⟩ := ih h
      rw [rest_eq] at append_eq
      refine ⟨kept, kept_ends, ?_⟩
      rw [List.cons_append, strip_code (by simpa using quotes), append_eq, List.cons_append]
      intro slash
      constructor
      · intro first
        obtain ⟨tail, tail_eq⟩ := List.head?_eq_some_iff.mp
          (head?_append_terminator h (by decide) (by decide) first)
        exact noLine tail slash tail_eq
      · intro first
        obtain ⟨tail, tail_eq⟩ := List.head?_eq_some_iff.mp
          (head?_append_terminator h (by decide) (by decide) first)
        exact noBlock tail slash tail_eq

theorem strip_line (inComment : Bool) (line : List Char) :
    ∃ kept, IsTerminator kept ∧ strip inComment line =
      ((strip inComment (chomp line)).1 ++ kept, (strip inComment (chomp line)).2) := by
  obtain ⟨ends, line_eq, isTerminator⟩ := chomp_append_terminator line
  obtain ⟨kept, kept_ends, same⟩ := strip_append_terminator isTerminator inComment (chomp line)
  rw [← line_eq] at same
  exact ⟨kept, kept_ends, same⟩

theorem IsTerminator.balance_append {ends : List Char} (h : IsTerminator ends) (code : List Char) :
    Body.balance (code ++ ends) = Body.balance code := by
  have none : Body.balance ends = 0 := by
    rw [Body.balance, List.count_eq_zero.mpr (h.not_mem (by decide) (by decide)),
      List.count_eq_zero.mpr (h.not_mem (by decide) (by decide))]
    rfl
  rw [Source.balance_append, none, Int.add_zero]

theorem IsTerminator.contains_append {ends : List Char} (h : IsTerminator ends)
    (code : List Char) : (code ++ ends).contains '\x7b' = code.contains '\x7b' := by
  have none : '\x7b' ∉ ends := h.not_mem (by decide) (by decide)
  simp [none]

theorem afterComment?_suffix {text rest : List Char} (closed : afterComment? text = some rest) :
    rest <:+ text := by
  fun_induction afterComment? text with
  | case1 => cases closed
  | case2 =>
      cases closed
      exact ⟨['*', '/'], rfl⟩
  | case3 c text _ ih => exact (ih closed).trans (List.suffix_cons c text)

theorem afterLiteral_suffix (quote : Char) (text : List Char) :
    afterLiteral quote text <:+ text := by
  fun_induction afterLiteral quote text with
  | case1 => exact List.suffix_rfl
  | case2 c rest ih => exact ih.trans ⟨['\\', c], rfl⟩
  | case3 c rest => exact List.suffix_cons c rest
  | case4 c rest _ _ ih => exact ih.trans (List.suffix_cons c rest)

theorem strip_sublist (inComment : Bool) (text : List Char) :
    (strip inComment text).1.Sublist text := by
  fun_induction strip inComment text with
  | case1 line rest closed ih => exact ih.trans (afterComment?_suffix closed).sublist
  | case2 => exact List.nil_sublist _
  | case3 => exact List.nil_sublist _
  | case4 => exact List.nil_sublist _
  | case5 _ _ rest ih => exact ih.trans (List.suffix_append ['/', '*'] rest).sublist
  | case6 _ _ quote rest _ _ _ ih =>
      exact ih.trans ((afterLiteral_suffix quote rest).trans (List.suffix_cons quote rest)).sublist
  | case7 _ _ c rest _ _ _ code after rest_eq ih =>
      rw [rest_eq] at ih
      exact ih.cons_cons c

theorem not_mem_of_mem_codes {inComment : Bool} {lines : List (List Char)} {code : List Char}
    (oneLine : ∀ line ∈ lines, '\n' ∉ chomp line) (member : code ∈ codes inComment lines) :
    '\n' ∉ code := by
  induction lines generalizing inComment with
  | nil => cases member
  | cons line lines ih =>
      rcases List.mem_cons.mp member with rfl | later
      · exact fun feed => oneLine line List.mem_cons_self ((strip_sublist _ _).subset feed)
      · exact ih (fun other among => oneLine other (List.mem_cons_of_mem line among)) later

end CallTimeline.Source
