import CallTimeline.Proofs.Source.Strip

/-!
# Code, one character at a time

`strip` jumps over comments and literals. A scanner that reads one character at a time and knows no
more than its mode comes to the same code and the same comment state (`strip_eq_read`). So a line can
be stripped in two parts, unless the cut goes through a literal, a line comment or one of the tokens
that begin and end a comment (`strip_characterwise`).
-/

namespace CallTimeline.Source

inductive Mode where
  | code
  /-- Behind a slash in code, which may begin a comment. -/
  | slash
  | block
  /-- Behind a star in a block comment that may end it. The star that begins the comment may not. -/
  | star
  | literal (quote : Char)
  | escape (quote : Char)
  | lineComment
deriving Repr, DecidableEq

namespace Mode

def start (inComment : Bool) : Mode :=
  if inComment then block else code

def nextInCode (c : Char) : List Char × Mode :=
  if c = '"' ∨ c = '\'' then ([], literal c) else ([c], code)

/-- What is given when a character is read, and the mode behind it. A slash is held back until it is
known not to begin a comment. -/
def next : Mode → Char → List Char × Mode
  | code, c => if c = '/' then ([], slash) else nextInCode c
  | slash, c =>
    if c = '/' then ([], lineComment)
    else if c = '*' then ([], block)
    else ('/' :: (nextInCode c).1, (nextInCode c).2)
  | block, c => ([], if c = '*' then star else block)
  | star, c => ([], if c = '/' then code else if c = '*' then star else block)
  | literal quote, c =>
    ([], if c = '\\' then escape quote else if c = quote then code else literal quote)
  | escape quote, _ => ([], literal quote)
  | lineComment, _ => ([], lineComment)

def run (mode : Mode) : List Char → List Char × Mode
  | [] => ([], mode)
  | c :: rest =>
    let (given, mode) := mode.next c
    let (more, last) := run mode rest
    (given ++ more, last)

def held : Mode → List Char
  | slash => ['/']
  | _ => []

def isComment : Mode → Bool
  | block | star => true
  | _ => false

def read (mode : Mode) (text : List Char) : List Char × Bool :=
  let (given, last) := mode.run text
  (given ++ last.held, last.isComment)

/-- A line may be cut here, before `text`: in code or in a block comment, but not within a token that
begins or ends a comment. -/
def Cuts : Mode → List Char → Prop
  | code, _ | block, _ => True
  | slash, text => text.head? ≠ some '/' ∧ text.head? ≠ some '*'
  | star, text => text.head? ≠ some '/'
  | _, _ => False

instance (mode : Mode) (text : List Char) : Decidable (mode.Cuts text) := by
  cases mode <;> unfold Cuts <;> infer_instance

theorem run_append (mode : Mode) (first second : List Char) :
    mode.run (first ++ second) =
      ((mode.run first).1 ++ ((mode.run first).2.run second).1,
        ((mode.run first).2.run second).2) := by
  induction first generalizing mode with
  | nil => rfl
  | cons c first ih => simp only [List.cons_append, run, ih, List.append_assoc]

theorem read_append (mode : Mode) (first second : List Char) :
    mode.read (first ++ second) =
      ((mode.run first).1 ++ ((mode.run first).2.read second).1,
        ((mode.run first).2.read second).2) := by
  simp only [read, run_append, List.append_assoc]

theorem read_cons (mode : Mode) (c : Char) (text : List Char) :
    mode.read (c :: text) =
      ((mode.next c).1 ++ ((mode.next c).2.read text).1, ((mode.next c).2.read text).2) := by
  simp only [read, run, List.append_assoc]

theorem read_of_cuts {mode : Mode} {text : List Char} (cuts : mode.Cuts text) :
    mode.read text =
      (mode.held ++ ((start mode.isComment).read text).1,
        ((start mode.isComment).read text).2) := by
  cases mode with
  | code | block => rfl
  | slash =>
      obtain ⟨noLine, noBlock⟩ := cuts
      cases text with
      | nil => rfl
      | cons c text =>
          have line : c ≠ '/' := fun same => noLine (congrArg some same)
          have block : c ≠ '*' := fun same => noBlock (congrArg some same)
          simp [read_cons, next, line, block, start, isComment, held]
  | star =>
      cases text with
      | nil => rfl
      | cons c text =>
          have open_ : c ≠ '/' := fun same => cuts (congrArg some same)
          simp [read_cons, next, open_, start, isComment, held]
  | literal | escape | lineComment => exact cuts.elim

theorem read_lineComment (text : List Char) : lineComment.read text = ([], false) := by
  induction text with
  | nil => rfl
  | cons c text ih => rw [read_cons, next, ih, List.append_nil]

theorem read_comment (text : List Char) :
    block.read text = (match afterComment? text with
      | some rest => code.read rest
      | none => ([], true)) ∧
    star.read text = (match afterComment? ('*' :: text) with
      | some rest => code.read rest
      | none => ([], true)) := by
  -- Both modes go through the text together: the star that may end the comment is looked at with
  -- the character behind it.
  induction text with
  | nil => exact ⟨rfl, rfl⟩
  | cons c text ih =>
      obtain ⟨inside, behindStar⟩ := ih
      constructor
      · by_cases isStar : c = '*'
        · subst isStar
          rw [read_cons, next, if_pos rfl, behindStar]
          rfl
        · rw [read_cons, next, if_neg isStar, inside,
            afterComment?_cons fun same => absurd same isStar]
          rfl
      · by_cases closes : c = '/'
        · subst closes
          rfl
        · have open_ : '*' = '*' → (c :: text).head? ≠ some '/' := by simpa using closes
          rw [read_cons, next, if_neg closes, afterComment?_cons open_]
          by_cases isStar : c = '*'
          · subst isStar
            rw [if_pos rfl, behindStar]
            rfl
          · rw [if_neg isStar, inside, afterComment?_cons fun same => absurd same isStar]
            rfl

theorem read_literal {quote : Char} (isQuote : quote = '"' ∨ quote = '\'') (text : List Char) :
    (literal quote).read text = code.read (afterLiteral quote text) := by
  have noEscape : quote ≠ '\\' := by rcases isQuote with rfl | rfl <;> decide
  fun_induction afterLiteral quote text with
  | case1 => rfl
  | case2 c rest ih => rw [read_cons, next, if_pos rfl, read_cons, next, ih]; rfl
  | case3 c rest _ closes =>
      obtain rfl : c = quote := by simpa using closes
      rw [read_cons, next, if_neg noEscape, if_pos rfl]
      rfl
  | case4 c rest other open_ ih =>
      have open_ : c ≠ quote := by simpa using open_
      by_cases escapes : c = '\\'
      · -- The backslash is the last character, or it would have taken the next one with it.
        subst escapes
        cases rest with
        | nil => rfl
        | cons d rest => exact absurd rfl (other d rest rfl)
      · rw [read_cons, next, if_neg escapes, if_neg open_, ih]
        rfl

end Mode

open Mode

theorem strip_eq_read (inComment : Bool) (line : List Char) :
    strip inComment line = (start inComment).read line := by
  fun_induction strip inComment line with
  | case1 line rest closed ih =>
      rw [ih]
      change _ = block.read line
      rw [(read_comment line).1, closed]
      rfl
  | case2 line unclosed =>
      change _ = block.read line
      rw [(read_comment line).1, unclosed]
  | case3 inComment outside =>
      obtain rfl : inComment = false := by simpa using outside
      rfl
  | case4 inComment outside rest =>
      obtain rfl : inComment = false := by simpa using outside
      exact (read_lineComment rest).symm
  | case5 inComment outside rest ih =>
      obtain rfl : inComment = false := by simpa using outside
      exact ih
  | case6 inComment outside quote rest _ _ quotes ih =>
      obtain rfl : inComment = false := by simpa using outside
      have isQuote : quote = '"' ∨ quote = '\'' := by simpa using quotes
      have noSlash : quote ≠ '/' := by rcases isQuote with rfl | rfl <;> decide
      change _ = code.read (quote :: rest)
      rw [ih, read_cons, next, if_neg noSlash, nextInCode, if_pos isQuote, read_literal isQuote]
      rfl
  | case7 inComment outside c rest noLine noBlock quotes given after rest_eq ih =>
      obtain rfl : inComment = false := by simpa using outside
      rw [rest_eq] at ih
      change (given, after) = code.read rest at ih
      change _ = code.read (c :: rest)
      by_cases isSlash : c = '/'
      · subst isSlash
        -- The slash was held back. It begins no comment, so the rest is read as code.
        have cuts : slash.Cuts rest := by
          constructor <;> intro first <;> obtain ⟨tail, tail_eq⟩ := List.head?_eq_some_iff.mp first
          · exact noLine tail rfl tail_eq
          · exact noBlock tail rfl tail_eq
        rw [read_cons, next, if_pos rfl, read_of_cuts cuts]
        change _ = ('/' :: (code.read rest).1, (code.read rest).2)
        rw [← ih]
      · rw [read_cons, next, if_neg isSlash, nextInCode, if_neg (by simpa using quotes), ← ih]
        rfl

theorem snd_strip_eq_isComment (inComment : Bool) (line : List Char) :
    (strip inComment line).2 = ((start inComment).run line).2.isComment := by
  rw [strip_eq_read]
  rfl

/-- Stripping a line gives the code that a scanner reads in it, one character at a time. A line that is
cut in code or in a block comment, and not within a token, can be stripped in two parts. -/
theorem strip_characterwise (inComment : Bool) (line : List Char) :
    strip inComment line = (start inComment).read line ∧
      ∀ first second, line = first ++ second → ((start inComment).run first).2.Cuts second →
        strip inComment line =
          ((strip inComment first).1 ++ (strip (strip inComment first).2 second).1,
            (strip (strip inComment first).2 second).2) := by
  refine ⟨strip_eq_read inComment line, ?_⟩
  rintro first second rfl cuts
  rw [strip_eq_read, read_append, read_of_cuts cuts, ← snd_strip_eq_isComment, ← strip_eq_read,
    ← List.append_assoc]
  congr 2
  rw [strip_eq_read]
  rfl

theorem strip_characterwise_cut :
    let first := "f(\"/*\", '\\'') / a /*".toList
    let second := "/ b */; // c".toList
    ((start false).run first).2.Cuts second ∧
      strip false (first ++ second) = ((strip false first).1 ++ (strip true second).1, false) ∧
      String.ofList (strip false (first ++ second)).1 = "f(, ) / a ; " := by
  intro first second
  have cuts : ((start false).run first).2.Cuts second := by decide
  have parts := (strip_characterwise false (first ++ second)).2 first second rfl cuts
  have given : strip false first = ("f(, ) / a ".toList, true) := by
    rw [strip_eq_read]
    rfl
  have given' : strip true second = ("; ".toList, false) := by
    rw [strip_eq_read]
    rfl
  rw [given, given'] at parts
  rw [given, given', parts]
  exact ⟨cuts, rfl, by decide +kernel⟩

end CallTimeline.Source
