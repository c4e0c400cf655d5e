import CallTimeline.Proofs.Text.Lines
import CallTimeline.Source.Definition
import Mathlib.Data.List.TakeWhile

namespace CallTimeline.Source

open Text

theorem extendsName_of_isBlank {c : Char} (blank : isBlank c = true) : extendsName c = false := by
  have table : ∀ n ∈ blankCodes, extendsName (Char.ofNat n) = false := by decide +kernel
  have of_code := table c.toNat (toNat_mem_blankCodes blank)
  rwa [Char.ofNat_toNat] at of_code

theorem callAt?_eq_some {symbol text call : List Char} :
    callAt? symbol text = some call ↔
      ∃ gap arguments, (∀ c ∈ gap, isBlank c = true) ∧ call = '(' :: arguments ∧
        text = symbol ++ (gap ++ call) := by
  constructor
  · intro found
    unfold callAt? at found
    split at found
    case h_2 => cases found
    case h_1 arguments after =>
      cases found
      obtain ⟨tail, behind, cut⟩ := Option.map_eq_some_iff.mp after
      refine ⟨tail.takeWhile isBlank, arguments, fun c => List.mem_takeWhile_imp, rfl, ?_⟩
      rw [← cut, List.takeWhile_append_dropWhile]
      exact (List.isPrefixOf?_eq_some_iff_append_eq.mp behind).symm
  · rintro ⟨gap, arguments, blank, rfl, rfl⟩
    have behind : behind? symbol (symbol ++ (gap ++ '(' :: arguments)) =
        some (gap ++ '(' :: arguments) :=
      List.isPrefixOf?_eq_some_iff_append_eq.mpr rfl
    have dropped : (gap ++ '(' :: arguments).dropWhile isBlank = '(' :: arguments :=
      dropWhile_append_of_head? blank fun c first => by
        obtain rfl : '(' = c := by simpa using first
        decide
    rw [callAt?, behind, Option.map_some, dropped]
    rfl

theorem getLast?_cons_or (c : Char) (text : List Char) (previous : Option Char) :
    (c :: text).getLast?.or previous = text.getLast?.or (some c) := by
  rw [List.getLast?_cons]
  cases text.getLast? <;> rfl

/-- `text` is `before`, the symbol, blanks and `call`; a call begins with a parenthesis, and no
longer name ends with the symbol. -/
structure CallIn (symbol : List Char) (previous : Option Char) (text before call : List Char) :
    Prop where
  parts : ∃ gap, (∀ c ∈ gap, isBlank c = true) ∧ text = before ++ (symbol ++ (gap ++ call))
  opens : ∃ arguments, call = '(' :: arguments
  alone : (before.getLast?.or previous).any extendsName = false

theorem CallIn.of_here {symbol text call : List Char} {previous : Option Char}
    (found : (if previous.any extendsName then none else callAt? symbol text) = some call) :
    CallIn symbol previous text [] call := by
  obtain ⟨alone, found⟩ := Option.ite_none_left_eq_some.mp found
  obtain ⟨gap, arguments, blank, call_eq, text_eq⟩ := callAt?_eq_some.mp found
  exact ⟨⟨gap, blank, text_eq⟩, ⟨arguments, call_eq⟩, by simpa using alone⟩

theorem CallIn.cons {symbol text before call : List Char} {c : Char} {previous : Option Char}
    (later : CallIn symbol (some c) text before call) :
    CallIn symbol previous (c :: text) (c :: before) call := by
  obtain ⟨⟨gap, blank, text_eq⟩, opens, alone⟩ := later
  exact ⟨⟨gap, blank, by rw [text_eq, List.cons_append]⟩, opens,
    by rwa [getLast?_cons_or]⟩

theorem findCall?_eq_some {symbol text before call : List Char} {previous : Option Char}
    (found : findCall? symbol previous text = some (before, call)) :
    CallIn symbol previous text before call := by
  induction text generalizing previous before with
  | nil =>
      unfold findCall? at found
      split at found
      case h_1 here =>
        cases found
        exact .of_here here
      case h_2 => cases found
  | cons c rest ih =>
      unfold findCall? at found
      split at found
      case h_1 here =>
        cases found
        exact .of_here here
      case h_2 =>
        obtain ⟨⟨later, _⟩, found, pair_eq⟩ := Option.map_eq_some_iff.mp found
        cases pair_eq
        exact (ih found).cons

theorem hasWord_append {symbol before rest : List Char} {previous : Option Char}
    (left : (before.getLast?.or previous).any extendsName = false)
    (right : rest.head?.any extendsName = false) :
    hasWord symbol previous (before ++ (symbol ++ rest)) = true := by
  induction before generalizing previous with
  | nil =>
      have behind : behind? symbol (symbol ++ rest) = some rest :=
        List.isPrefixOf?_eq_some_iff_append_eq.mpr rfl
      have left : previous.any extendsName = false := left
      rw [List.nil_append, hasWord.eq_def, behind, Option.any_some, left, right]
      rfl
  | cons c before ih =>
      rw [getLast?_cons_or] at left
      have later : hasWord symbol (some c) (before ++ (symbol ++ rest)) = true := ih left
      rw [List.cons_append, hasWord, later, Bool.or_true]

theorem CallIn.hasWord {symbol text before call : List Char} {previous : Option Char}
    (found : CallIn symbol previous text before call) (ends : List Char) :
    Source.hasWord symbol previous (text ++ ends) = true := by
  obtain ⟨⟨gap, blank, text_eq⟩, ⟨arguments, call_eq⟩, alone⟩ := found
  have grouped : text ++ ends = before ++ (symbol ++ (gap ++ (call ++ ends))) := by
    simp [text_eq]
  rw [grouped]
  apply hasWord_append alone
  cases gap with
  | nil =>
      rw [call_eq]
      rfl
  | cons c gap => simp [extendsName_of_isBlank (blank c List.mem_cons_self)]

theorem CallIn.infix {symbol text before call : List Char} {previous : Option Char}
    (found : CallIn symbol previous text before call) : symbol <:+: text := by
  obtain ⟨gap, _, text_eq⟩ := found.parts
  exact ⟨before, gap ++ call, by rw [text_eq, List.append_assoc]⟩

theorem declarator?_eq_some {symbol line call : List Char} {inComment : Bool}
    (found : declarator? symbol line inComment = some call) :
    inComment = false ∧ ∃ before,
      CallIn symbol none (chomp line) before call ∧ isCodeAfter before = true ∧
      (before.any (!isBlank ·) = true → isDeclarator before = true) := by
  unfold declarator? at found
  simp only [Option.ite_none_left_eq_some] at found
  obtain ⟨outside, found⟩ := found
  split at found
  case h_1 => cases found
  case h_2 before rest here =>
    simp only [Option.ite_none_right_eq_some, Bool.and_eq_true] at found
    obtain ⟨⟨⟨code, declares⟩, _⟩, call_eq⟩ := found
    cases call_eq
    refine ⟨?_, before, findCall?_eq_some here, code, ?_⟩
    · simp only [Bool.or_eq_true, not_or, Bool.not_eq_true] at outside
      exact outside.1
    · intro words
      rwa [if_pos words] at declares

theorem hasWord_of_declarator? {symbol line call : List Char} {inComment : Bool}
    (found : declarator? symbol line inComment = some call) : hasWord symbol none line = true := by
  obtain ⟨_, before, here, _⟩ := declarator?_eq_some found
  obtain ⟨ends, line_eq⟩ := prefix_chomp line
  have word := here.hasWord ends
  rwa [line_eq] at word

theorem occurs_of_declarator? {symbol text line call : List Char} {inComment : Bool}
    (member : line ∈ sourceLines text) (found : declarator? symbol line inComment = some call) :
    occurs symbol text = true := by
  obtain ⟨_, before, here, _⟩ := declarator?_eq_some found
  exact occurs_of_mem_sourceLines member here.infix

end CallTimeline.Source
