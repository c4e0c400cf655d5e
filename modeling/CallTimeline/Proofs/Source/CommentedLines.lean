import CallTimeline.Proofs.Source.Marks
import CallTimeline.Proofs.Source.Scanner

/-!
# Comments behind code

A comment that is put behind the code of a line changes no mark of its file and no comment state
(`filter_strip_commented`), and no call begins in it (`lenientCall?_append`). So it changes the
definition test only where the line that is tested has it, by the one rule that does not look for
comments: a line that ends with a semicolon and has no brace is taken for a statement
(`isDefinition_commented`).
-/

namespace CallTimeline.Source

open Text Mode

def commented (content text ends : List Char) : List Char :=
  content ++ ' ' :: '/' :: '/' :: ' ' :: (text ++ ends)

/-- Whether a line is taken for a statement. Comments and literals count. -/
def isStatement (line : List Char) : Bool :=
  let trimmed := trim (chomp line)
  trimmed.getLast? == some ';' && !trimmed.contains '\x7b'

def lenientCall? (symbol text : List Char) (inComment : Bool) : Option (List Char) :=
  if inComment || startsWithComment (trim text) then none
  else
    match findCall? symbol none text with
    | none => none
    | some (before, call) =>
      let declares :=
        if before.any (!isBlank ·) then isDeclarator before else !text.head?.any isBlank
      if isCodeAfter before && declares then some call else none

def opensLeniently (context : Int) (symbol : List Char) (inComment : Bool)
    (lines : List (List Char)) : Bool :=
  match lines with
  | [] => false
  | line :: rest =>
    match lenientCall? symbol (chomp line) inComment with
    | none => false
    | some call => opensBody (windowCode false ((call :: rest).take (context + 1).toNat))

theorem declarator?_eq (symbol line : List Char) (inComment : Bool) :
    declarator? symbol line inComment =
      if isStatement line then none else lenientCall? symbol (chomp line) inComment := by
  unfold declarator? lenientCall?
  rw [isStatement]
  simp only
  generalize ((trim (chomp line)).getLast? == some ';' &&
    !(trim (chomp line)).contains '\x7b') = statement
  cases findCall? symbol none (chomp line) <;> cases statement <;> simp

theorem opensDefinition_cons (context : Int) (symbol : List Char) (inComment : Bool)
    (line : List Char) (rest : List (List Char)) :
    opensDefinition context symbol inComment (line :: rest) =
      (opensLeniently context symbol inComment (line :: rest) && !isStatement line) := by
  rw [opensDefinition.eq_def, opensLeniently.eq_def]
  simp only [declarator?_eq]
  cases isStatement line with
  | true => simp
  | false =>
      cases lenientCall? symbol (chomp line) inComment with
      | none => rfl
      | some call => simp

namespace Mode

def isCode : Mode → Bool
  | code | slash => true
  | _ => false

theorem run_plain {text : List Char} (plain : ∀ c ∈ text, isPlain c = true) :
    code.run text = (text, code) := by
  induction text with
  | nil => rfl
  | cons c text ih =>
      obtain ⟨here, later⟩ := List.forall_mem_cons.mp plain
      simp only [isPlain, Bool.and_eq_true, bne_iff_ne] at here
      have given : code.next c = ([c], code) := by simp [next, nextInCode, here]
      rw [run, given]
      simp only [ih later, List.singleton_append]

theorem read_plain {mode : Mode} (outside : mode.isCode = true) {text : List Char}
    (plain : ∀ c ∈ text, isPlain c = true) (noStar : '*' ∉ text) :
    mode.read text = (mode.held ++ text, false) := by
  have cuts : mode.Cuts text := by
    cases mode with
    | code => trivial
    | slash =>
        refine ⟨fun first => ?_, fun first => noStar (List.mem_of_mem_head? first)⟩
        exact absurd (plain '/' (List.mem_of_mem_head? first)) (by decide)
    | _ => cases outside
  have noComment : mode.isComment = false := by
    cases mode <;> first | rfl | cases outside
  rw [read_of_cuts cuts, noComment]
  change (mode.held ++ (code.read text).1, (code.read text).2) = _
  rw [read, run_plain plain]
  simp [held, isComment]

theorem read_commented {mode : Mode} (outside : mode.isCode = true) (text : List Char) :
    mode.read (' ' :: '/' :: '/' :: text) = (mode.held ++ [' '], false) := by
  have begins : mode.run [' ', '/', '/'] = (mode.held ++ [' '], lineComment) := by
    cases mode <;> first | rfl | cases outside
  have parts := read_append mode [' ', '/', '/'] text
  rwa [begins, read_lineComment, List.append_nil] at parts

end Mode

theorem isPlain_of_isBlank {c : Char} (blank : isBlank c = true) : isPlain c = true :=
  isPlain_of_class blank (by decide) (by decide) (by decide)

theorem isBlank_of_isLineEnd {c : Char} (ends : isLineEnd c = true) : isBlank c = true := by
  simp only [isLineEnd, Bool.or_eq_true, Bool.and_eq_true, decide_eq_true_eq, beq_iff_eq] at ends
  simp only [isBlank, Bool.or_eq_true, Bool.and_eq_true, decide_eq_true_eq, beq_iff_eq]
  omega

section

variable {content text ends : List Char} {inComment : Bool} {before behind : List (List Char)}

def commentAfter (inComment : Bool) (lines : List (List Char)) : Bool :=
  lines.foldl (fun inComment line => (strip inComment (chomp line)).2) inComment

theorem commentBefore_eq (lines : List (List Char)) (index : Nat) :
    commentBefore lines index = commentAfter false (lines.take index) :=
  rfl

theorem filter_strip_commented (outside : ((start inComment).run content).2.isCode = true)
    (blank : ∀ c ∈ ends, isBlank c = true) (text : List Char) :
    (strip inComment (commented content text ends)).1.filter isMark =
        (strip inComment (content ++ ends)).1.filter isMark ∧
      (strip inComment (commented content text ends)).2 =
        (strip inComment (content ++ ends)).2 := by
  have noMarks : ends.filter isMark = [] := by
    rw [List.filter_eq_nil_iff]
    intro c member
    simp [isMark_eq_false_of_isBlank (blank c member)]
  have noMark : [' '].filter isMark = [] := by decide
  have ends_eq := read_plain outside (fun c member => isPlain_of_isBlank (blank c member))
    (fun star => absurd (blank '*' star) (by decide))
  rw [strip_eq_read, strip_eq_read, commented, read_append, read_append, ends_eq,
    read_commented outside]
  simp only [List.filter_append, noMark, noMarks, and_self]

theorem filter_codes_commented (count : Nat)
    (outside : ((start (commentAfter inComment before)).run content).2.isCode = true)
    (blank : ∀ c ∈ ends, isBlank c = true) :
    (codes inComment ((before ++ commented content text ends :: behind).take count)).flatten.filter
        isMark =
      (codes inComment ((before ++ (content ++ ends) :: behind).take count)).flatten.filter
        isMark := by
  induction before generalizing inComment count with
  | nil =>
      cases count with
      | zero => rfl
      | succ count =>
          have outside : ((start inComment).run content).2.isCode = true := outside
          obtain ⟨marks_eq, after_eq⟩ := filter_strip_commented outside blank text
          simp only [List.nil_append, List.take_succ_cons, codes, List.flatten_cons,
            List.filter_append, filter_strip_chomp, marks_eq, after_eq]
  | cons line before ih =>
      cases count with
      | zero => rfl
      | succ count =>
          simp only [List.cons_append, List.take_succ_cons, codes, List.flatten_cons,
            List.filter_append, ih count outside]

theorem commentBefore_commented (index : Nat)
    (outside : ((start (commentAfter false before)).run content).2.isCode = true)
    (blank : ∀ c ∈ ends, isBlank c = true) :
    commentBefore (before ++ commented content text ends :: behind) index =
      commentBefore (before ++ (content ++ ends) :: behind) index := by
  by_cases within : index ≤ before.length
  · rw [commentBefore_eq, commentBefore_eq, List.take_append_of_le_length within,
      List.take_append_of_le_length within]
  · obtain ⟨count, rfl⟩ : ∃ count, index = before.length + (count + 1) :=
      ⟨index - before.length - 1, by omega⟩
    have after_eq : ∀ line, commentBefore (before ++ line :: behind) (before.length + (count + 1)) =
        commentAfter (strip (commentAfter false before) line).2 (behind.take count) := by
      intro line
      rw [commentBefore, List.take_length_add_append, List.take_succ_cons, List.foldl_append,
        List.foldl_cons, (filter_strip_chomp _ line).2]
      rfl
    rw [after_eq, after_eq, (filter_strip_commented outside blank text).2]

end

section

variable {symbol text gap rest : List Char}

theorem slash_mem_of_parenthesis {before arguments : List Char}
    (blank : ∀ c ∈ gap, isBlank c = true) (comment : ∀ c ∈ rest.head?, c = '/')
    (parts : gap ++ rest = before ++ '(' :: arguments) : '/' ∈ before := by
  obtain ⟨later, rfl, rest_eq⟩ | ⟨later, rfl, rest_eq⟩ := List.append_eq_append_iff.mp parts
  · cases later with
    | nil =>
        obtain rfl : rest = '(' :: arguments := rest_eq
        exact absurd (comment '(' rfl) (by decide)
    | cons c later =>
        obtain rfl : c = '/' := comment c (by rw [rest_eq]; rfl)
        simp
  · cases later with
    | nil =>
        obtain rfl : '(' :: arguments = rest := rest_eq
        exact absurd (comment '(' rfl) (by decide)
    | cons c later =>
        obtain ⟨rfl, -⟩ := List.cons.inj rest_eq
        exact absurd (blank '(' (by simp)) (by decide)

theorem callAt?_append_gap (noSlash : '/' ∉ symbol) (blank : ∀ c ∈ gap, isBlank c = true)
    (comment : ∀ c ∈ rest.head?, c = '/') (text : List Char) :
    callAt? symbol (text ++ (gap ++ rest)) =
      (callAt? symbol text).map (· ++ (gap ++ rest)) := by
  ext call
  rw [Option.map_eq_some_iff]
  constructor
  · intro found
    obtain ⟨inner, arguments, innerBlank, rfl, parts⟩ := callAt?_eq_some.mp found
    have noSlash : '/' ∉ symbol ++ inner := by
      rw [List.mem_append, not_or]
      exact ⟨noSlash, fun member => absurd (innerBlank '/' member) (by decide)⟩
    rw [← List.append_assoc symbol] at parts
    obtain ⟨before, front, tail_eq⟩ | ⟨before, rfl, tail_eq⟩ := List.append_eq_append_iff.mp parts
    · have slash := slash_mem_of_parenthesis blank comment tail_eq
      exact absurd (by rw [front]; exact List.mem_append_right _ slash) noSlash
    · cases before with
      | nil => cases @slash_mem_of_parenthesis _ _ [] _ blank comment tail_eq.symm
      | cons c call =>
          obtain ⟨rfl, rfl⟩ := List.cons.inj tail_eq
          exact ⟨'(' :: call,
            callAt?_eq_some.mpr ⟨inner, call, innerBlank, rfl, List.append_assoc _ _ _⟩, rfl⟩
  · rintro ⟨call, found, rfl⟩
    obtain ⟨inner, arguments, innerBlank, rfl, rfl⟩ := callAt?_eq_some.mp found
    exact callAt?_eq_some.mpr ⟨inner, arguments ++ (gap ++ rest), innerBlank, rfl, by simp⟩

theorem findCall?_append_gap (noSlash : '/' ∉ symbol) (blank : ∀ c ∈ gap, isBlank c = true)
    (comment : ∀ c ∈ rest.head?, c = '/') (previous : Option Char) (text : List Char) :
    findCall? symbol previous (text ++ (gap ++ rest)) =
      match findCall? symbol previous text with
      | some (before, call) => some (before, call ++ (gap ++ rest))
      | none => (findCall? symbol (text.getLast?.or previous) (gap ++ rest)).map
          fun (before, call) => (text ++ before, call) := by
  -- Each place of the text begins a call just if it did before, so the first one stays the first.
  induction text generalizing previous with
  | nil =>
      have none_here : callAt? symbol [] = none :=
        Option.eq_none_iff_forall_ne_some.mpr fun call found => by
          obtain ⟨inner, arguments, -, rfl, parts⟩ := callAt?_eq_some.mp found
          simp at parts
      have none : findCall? symbol previous [] = none := by
        rw [findCall?, none_here, ite_self]
      simp only [none, List.nil_append, List.getLast?_nil, Option.none_or]
      cases findCall? symbol previous (gap ++ rest) <;> rfl
  | cons c text ih =>
      have here : callAt? symbol (c :: (text ++ (gap ++ rest))) =
          (callAt? symbol (c :: text)).map (· ++ (gap ++ rest)) :=
        callAt?_append_gap noSlash blank comment (c :: text)
      rw [getLast?_cons_or, List.cons_append, findCall?.eq_def, findCall?.eq_def symbol previous (c :: text),
        here]
      have found : (if previous.any extendsName then none
            else (callAt? symbol (c :: text)).map (· ++ (gap ++ rest))) =
          (if previous.any extendsName then none else callAt? symbol (c :: text)).map
            (· ++ (gap ++ rest)) := by
        split <;> rfl
      rw [found]
      cases if previous.any extendsName then none else callAt? symbol (c :: text) with
      | some call => rfl
      | none =>
          simp only [ih]
          cases findCall? symbol (some c) text with
          | some later => rfl
          | none => simp [Option.map_map, Function.comp_def]

theorem slash_mem_of_findCall? {before call : List Char} {previous : Option Char}
    (noSlash : '/' ∉ symbol) (blank : ∀ c ∈ gap, isBlank c = true)
    (comment : ∀ c ∈ rest.head?, c = '/')
    (found : findCall? symbol previous (gap ++ rest) = some (before, call)) : '/' ∈ before := by
  obtain ⟨⟨inner, innerBlank, parts⟩, ⟨arguments, rfl⟩, -⟩ := findCall?_eq_some found
  by_contra none
  have grouped : gap ++ rest = (before ++ symbol ++ inner) ++ '(' :: arguments := by
    simp [parts]
  have slash := slash_mem_of_parenthesis blank comment grouped
  simp only [List.mem_append, none, noSlash, false_or] at slash
  exact absurd (innerBlank '/' slash) (by decide)

theorem startsWithComment_append {xs ys : List Char}
    (other : ∀ c ∈ ys.head?, c ≠ '/' ∧ c ≠ '*') :
    startsWithComment (xs ++ ys) = startsWithComment xs := by
  cases ys with
  | nil => rw [List.append_nil]
  | cons c ys =>
      obtain ⟨slash, star⟩ := other c rfl
      match xs with
      | [] => simp [startsWithComment, List.isPrefixOf, Ne.symm slash, star]
      | [x] => simp [startsWithComment, List.isPrefixOf, Ne.symm slash, Ne.symm star]
      | x :: y :: xs => simp [startsWithComment, List.isPrefixOf]

theorem startsWithComment_trim (text : List Char) :
    startsWithComment (trim text) = startsWithComment (text.dropWhile isBlank) := by
  obtain ⟨ends, parts, blank⟩ := exists_dropEndWhile isBlank (text.dropWhile isBlank)
  conv_rhs => rw [parts]
  refine (startsWithComment_append fun c first => ?_).symm
  have here := blank c (List.mem_of_mem_head? first)
  constructor <;> rintro rfl <;> exact absurd here (by decide)

theorem lenientCall?_append (noSlash : '/' ∉ symbol) (blank : ∀ c ∈ gap, isBlank c = true)
    (comment : ∀ c ∈ rest.head?, c = '/') (apart : ∀ c ∈ (gap ++ rest).head?, isBlank c = true)
    (inComment : Bool) (text : List Char) :
    lenientCall? symbol (text ++ (gap ++ rest)) inComment =
      (lenientCall? symbol text inComment).map (· ++ (gap ++ rest)) := by
  have found := findCall?_append_gap noSlash blank comment none text
  cases here : findCall? symbol none text with
  | some parts =>
      obtain ⟨before, call⟩ := parts
      simp only [here] at found
      obtain ⟨⟨inner, -, text_eq⟩, ⟨arguments, call_eq⟩, -⟩ := findCall?_eq_some here
      have opens : '(' ∈ text := by simp [text_eq, call_eq]
      have solid : (text.dropWhile isBlank).isEmpty = false := by
        simpa using List.ne_nil_of_mem (mem_dropWhile opens (by decide))
      have first : (text ++ (gap ++ rest)).head? = text.head? :=
        List.head?_append_of_ne_nil _ (List.ne_nil_of_mem opens)
      have starts : startsWithComment (trim (text ++ (gap ++ rest))) =
          startsWithComment (trim text) := by
        rw [startsWithComment_trim, startsWithComment_trim, List.dropWhile_append, solid]
        refine startsWithComment_append fun c first => ?_
        have here := apart c first
        constructor <;> rintro rfl <;> exact absurd here (by decide)
      simp only [lenientCall?, found, here, starts, first]
      split
      · rfl
      · split <;> split <;> rfl
  | none =>
      have nothing : lenientCall? symbol text inComment = none := by
        simp only [lenientCall?, here, ite_self]
      rw [nothing, Option.map_none, lenientCall?]
      simp only [here] at found
      -- A call in the comment is refused: the slash before it cannot stand in a declarator.
      cases behind : findCall? symbol (text.getLast?.or none) (gap ++ rest) with
      | none =>
          rw [behind, Option.map_none] at found
          simp only [found, ite_self]
      | some parts =>
          obtain ⟨before, call⟩ := parts
          have slash := slash_mem_of_findCall? noSlash blank comment behind
          rw [behind, Option.map_some] at found
          have words : (text ++ before).any (!isBlank ·) = true :=
            List.any_eq_true.mpr ⟨'/', List.mem_append_right text slash, by decide⟩
          have noDeclarator : isDeclarator (text ++ before) = false := by
            by_contra accepted
            have chars := (declarator_of_declares fun _ => by simpa using accepted).1
            exact absurd (chars '/' (List.mem_append_right text slash)) (by decide)
          simp [found, words, noDeclarator]

theorem lenientCall?_append_blank (noSlash : '/' ∉ symbol) (blank : ∀ c ∈ gap, isBlank c = true)
    (inComment : Bool) (text : List Char) :
    lenientCall? symbol (text ++ gap) inComment =
      (lenientCall? symbol text inComment).map (· ++ gap) := by
  have whole : lenientCall? symbol (text ++ (gap ++ [])) inComment = _ :=
    lenientCall?_append noSlash blank (by simp)
      (by simpa using fun c first => blank c (List.mem_of_mem_head? first)) inComment text
  rwa [List.append_nil] at whole

theorem lenientCall?_append_comment (noSlash : '/' ∉ symbol) (inComment : Bool)
    (text : List Char) :
    lenientCall? symbol (text ++ ' ' :: '/' :: '/' :: rest) inComment =
      (lenientCall? symbol text inComment).map (· ++ ' ' :: '/' :: '/' :: rest) := by
  have space : ∀ c ∈ [' '], isBlank c = true := List.forall_mem_singleton.mpr (by decide)
  have whole : lenientCall? symbol (text ++ ([' '] ++ '/' :: '/' :: rest)) inComment = _ :=
    lenientCall?_append noSlash space (by simp) (by simpa using space) inComment text
  exact whole

end

section

variable {symbol line call : List Char} {inComment : Bool} {context : Int}

theorem lenientCall?_eq_some (plain : ∀ c ∈ symbol, isPlain c = true)
    (found : lenientCall? symbol line inComment = some call) :
    inComment = false ∧ ∃ front, (∀ c ∈ front, isPlain c = true) ∧ line = front ++ call := by
  unfold lenientCall? at found
  simp only [Option.ite_none_left_eq_some] at found
  obtain ⟨outside, found⟩ := found
  split at found
  case h_1 => cases found
  case h_2 before rest here =>
    simp only [Option.ite_none_right_eq_some, Bool.and_eq_true] at found
    obtain ⟨⟨-, declares⟩, call_eq⟩ := found
    cases call_eq
    obtain ⟨gap, blank, line_eq⟩ := (findCall?_eq_some here).parts
    have chars := (declarator_of_declares fun words => by rwa [if_pos words] at declares).1
    refine ⟨?_, before ++ (symbol ++ gap), ?_, by rw [line_eq]; simp⟩
    · simp only [Bool.or_eq_true, not_or, Bool.not_eq_true] at outside
      exact outside.1
    · simp only [List.forall_mem_append]
      refine ⟨fun c member => ?_, plain, fun c member => isPlain_of_isBlank (blank c member)⟩
      exact isPlain_of_class (chars c member) (by decide) (by decide) (by decide)

theorem opensLeniently_cons (noSlash : '/' ∉ symbol) (rest : List (List Char)) :
    opensLeniently context symbol inComment (line :: rest) =
      (lenientCall? symbol line inComment).any fun call =>
        opensBody ((codes false ((call :: rest).take (context + 1).toNat)).flatten.filter
          isMark) := by
  obtain ⟨ends, line_eq, isTerminator⟩ := chomp_append_terminator line
  have blank : ∀ c ∈ ends, isBlank c = true := by
    intro c member
    rcases isTerminator c member with rfl | rfl <;> decide
  have whole := lenientCall?_append_blank noSlash blank inComment (chomp line)
  rw [← line_eq] at whole
  rw [whole, opensLeniently]
  cases lenientCall? symbol (chomp line) inComment with
  | none => rfl
  | some call =>
      simp only [Option.map_some, Option.any_some]
      rw [opensBody_windowCode]
      cases (context + 1).toNat with
      | zero => rfl
      | succ count =>
          obtain ⟨kept, kept_ends, call_eq⟩ := strip_append_terminator isTerminator false call
          simp only [List.take_succ_cons, codes, List.flatten_cons, List.filter_append,
            filter_strip_chomp, call_eq, kept_ends.filter_eq_nil, List.append_nil]

variable {content text ends : List Char} {between behind : List (List Char)}

theorem opensLeniently_commented (plain : ∀ c ∈ symbol, isPlain c = true)
    (blank : ∀ c ∈ ends, isBlank c = true)
    (outside : ((start inComment).run content).2.isCode = true) :
    opensLeniently context symbol inComment (commented content text ends :: behind) =
      opensLeniently context symbol inComment ((content ++ ends) :: behind) := by
  have noSlash : '/' ∉ symbol := fun member => absurd (plain '/' member) (by decide)
  rw [opensLeniently_cons noSlash, opensLeniently_cons noSlash, commented,
    lenientCall?_append_comment noSlash, lenientCall?_append_blank noSlash blank]
  cases found : lenientCall? symbol content inComment with
  | none => rfl
  | some call =>
      obtain ⟨rfl, front, frontPlain, rfl⟩ := lenientCall?_eq_some plain found
      have outside : (code.run call).2.isCode = true := by
        change (code.run (front ++ call)).2.isCode = true at outside
        rwa [run_append, run_plain frontPlain] at outside
      exact congrArg opensBody
        (@filter_codes_commented _ _ _ _ [] _ (context + 1).toNat outside blank)

theorem opensLeniently_commented_behind (plain : ∀ c ∈ symbol, isPlain c = true)
    (blank : ∀ c ∈ ends, isBlank c = true)
    (outside : ((start (commentAfter inComment (line :: between))).run content).2.isCode = true) :
    opensLeniently context symbol inComment
        (line :: (between ++ commented content text ends :: behind)) =
      opensLeniently context symbol inComment
        (line :: (between ++ (content ++ ends) :: behind)) := by
  have noSlash : '/' ∉ symbol := fun member => absurd (plain '/' member) (by decide)
  rw [opensLeniently_cons noSlash, opensLeniently_cons noSlash]
  cases found : lenientCall? symbol line inComment with
  | none => rfl
  | some call =>
      obtain ⟨rfl, front, frontPlain, rfl⟩ := lenientCall?_eq_some plain found
      have outside :
          ((start (commentAfter false (call :: between))).run content).2.isCode = true := by
        rw [commentAfter, List.foldl_cons, (filter_strip_chomp _ _).2, strip_append frontPlain,
          ← (filter_strip_chomp false call).2] at outside
        exact outside
      exact congrArg opensBody (filter_codes_commented (context + 1).toNat outside blank)

theorem opensDefinition_commented_behind {before : List (List Char)} {index : Nat}
    (plain : ∀ c ∈ symbol, isPlain c = true) (blank : ∀ c ∈ ends, isBlank c = true)
    (outside : ((start (commentAfter false before)).run content).2.isCode = true)
    (less : index < before.length) :
    let lines := before ++ (content ++ ends) :: behind
    let lines' := before ++ commented content text ends :: behind
    opensDefinition context symbol (commentBefore lines index) (lines'.drop index) =
      opensDefinition context symbol (commentBefore lines index) (lines.drop index) := by
  intro lines lines'
  obtain ⟨line, between, from_index⟩ : ∃ line between, before.drop index = line :: between :=
    List.exists_cons_of_ne_nil (by simpa using less)
  have here : commentBefore lines index = commentAfter false (before.take index) := by
    rw [commentBefore_eq, List.take_append_of_le_length (Nat.le_of_lt less)]
  have behind_eq : commentAfter (commentBefore lines index) (line :: between) =
      commentAfter false before := by
    rw [here, ← from_index, commentAfter, commentAfter, ← List.foldl_append,
      List.take_append_drop, commentAfter]
  rw [← behind_eq] at outside
  rw [List.drop_append_of_le_length (Nat.le_of_lt less),
    List.drop_append_of_le_length (Nat.le_of_lt less), from_index, List.cons_append,
    List.cons_append, opensDefinition_cons, opensDefinition_cons,
    opensLeniently_commented_behind plain blank outside]

end

/-- A comment behind the code of a line changes the definition test of a symbol without slashes and
quotes in one case only: the line is the one that is tested, everything but the rule about
statements speaks for a definition, and the comment gives or takes the semicolon at the end of the
line, or gives the brace. -/
theorem isDefinition_commented {context index : Int} {symbol content ends : List Char}
    {before behind : List (List Char)} (text : List Char) (plain : ∀ c ∈ symbol, isPlain c = true)
    (ended : ∀ c ∈ ends, isLineEnd c = true)
    (outside : ((start (commentBefore (before ++ (content ++ ends) :: behind) before.length)).run
      content).2.isCode = true) :
    let lines := before ++ (content ++ ends) :: behind
    let lines' := before ++ commented content text ends :: behind
    isDefinition context lines' index symbol (commentBefore lines' index.toNat) =
        isDefinition context lines index symbol (commentBefore lines index.toNat) ↔
      (index = before.length →
        opensLeniently context symbol (commentBefore lines before.length)
          (lines.drop before.length) = true →
        isStatement (commented content text ends) = isStatement (content ++ ends)) := by
  intro lines lines'
  have blank : ∀ c ∈ ends, isBlank c = true := fun c member => isBlank_of_isLineEnd (ended c member)
  have start_eq : commentBefore lines before.length = commentAfter false before := by
    rw [commentBefore_eq, List.take_left]
  rw [start_eq] at outside ⊢
  have state_eq : commentBefore lines' index.toNat = commentBefore lines index.toNat :=
    commentBefore_commented index.toNat outside blank
  rw [state_eq, isDefinition, isDefinition]
  by_cases negative : index < 0
  · have other : index ≠ before.length := by omega
    simp [negative, other]
  · obtain ⟨index, rfl⟩ := Int.eq_ofNat_of_zero_le (Int.not_lt.mp negative)
    rw [if_neg negative, if_neg negative, Int.toNat_natCast, Nat.cast_inj]
    rcases Nat.lt_trichotomy index before.length with less | rfl | more
    · exact ⟨fun _ index_eq => absurd index_eq (Nat.ne_of_lt less),
        fun _ => opensDefinition_commented_behind plain blank outside less⟩
    · rw [start_eq, List.drop_left, List.drop_left, opensDefinition_cons, opensDefinition_cons,
        opensLeniently_commented plain blank outside]
      cases opensLeniently context symbol (commentAfter false before)
          ((content ++ ends) :: behind) with
      | false => simp
      | true => simp
    · have same : lines'.drop index = lines.drop index := by
        obtain ⟨count, rfl⟩ : ∃ count, index = before.length + (count + 1) :=
          ⟨index - before.length - 1, by omega⟩
        rw [List.drop_length_add_append, List.drop_length_add_append, List.drop_succ_cons,
          List.drop_succ_cons]
      rw [same]
      exact ⟨fun _ index_eq => absurd index_eq (Nat.ne_of_gt more), fun _ => rfl⟩

theorem isDefinition_commented_first :
    let behind := ["\x7b\n".toList, "\x7d\n".toList]
    let lines := "int f(void)\n".toList :: behind
    let lines' := "int f(void) // (\" /* ;?\n".toList :: behind
    (∀ c ∈ ['f'], isPlain c = true) ∧ (∀ c ∈ ['\n'], isLineEnd c = true) ∧
      ((start (commentBefore lines 0)).run "int f(void)".toList).2.isCode = true ∧
      isDefinition 3 lines' 0 ['f'] (commentBefore lines' 0) =
        isDefinition 3 lines 0 ['f'] (commentBefore lines 0) ∧
      isDefinition 3 lines 0 ['f'] (commentBefore lines 0) = true := by
  intro behind lines lines'
  have plain : ∀ c ∈ ['f'], isPlain c = true := List.forall_mem_singleton.mpr (by decide)
  have ended : ∀ c ∈ ['\n'], isLineEnd c = true := List.forall_mem_singleton.mpr (by decide)
  have outside : ((start (commentBefore lines 0)).run "int f(void)".toList).2.isCode = true := by
    decide
  have noStatement : isStatement (commented "int f(void)".toList "(\" /* ;?".toList ['\n']) =
      isStatement ("int f(void)".toList ++ ['\n']) := by
    cbv
  have same := (@isDefinition_commented 3 0 ['f'] "int f(void)".toList ['\n'] [] behind
    "(\" /* ;?".toList plain ended outside).mpr fun _ _ => noStatement
  exact ⟨plain, ended, outside, same, by cbv⟩

/-- A comment that ends with a semicolon makes a statement of the first line of a definition. Of a
symbol that holds a slash or a quote a call can begin in a comment, or can hold one. -/
theorem isDefinition_commented_statement :
    let behind := ["\x7b\n".toList, "\x7d\n".toList]
    commented "int f(void)".toList "x;".toList ['\n'] = "int f(void) // x;\n".toList ∧
      ((start false).run "int f(void)".toList).2.isCode = true ∧
      isDefinition 3 ("int f(void)\n".toList :: behind) 0 ['f'] false = true ∧
      isDefinition 3 ("int f(void) // x;\n".toList :: behind) 0 ['f'] false = false ∧
      ((start false).run "int".toList).2.isCode = true ∧
      isDefinition 3 ("int\n".toList :: behind) 0 "// f".toList false = false ∧
      isDefinition 3 ("int // f(void)\n".toList :: behind) 0 "// f".toList false = true ∧
      ((start false).run "int f\"(a\"".toList).2.isCode = true ∧
      isDefinition 3 ("int f\"(a\"\n".toList :: ")\n".toList :: behind) 0 "f\"".toList false =
        true ∧
      isDefinition 3 ("int f\"(a\" // \" ) ; x\n".toList :: ")\n".toList :: behind) 0
        "f\"".toList false = false := by
  refine ⟨rfl, ?_, ?_, ?_, ?_, ?_, ?_, ?_, ?_, ?_⟩ <;> cbv

end CallTimeline.Source
