import CallTimeline.Proofs.Source.CalledName
import CallTimeline.Proofs.Source.Complete
import CallTimeline.Proofs.Source.Marks

namespace CallTimeline.Source

open Text

/-- The lines begin with type words, the symbol, an argument list in parentheses and an opening
brace. The list begins on the first line. It holds nothing that can end a statement, open a body or
hide a parenthesis. -/
structure Canonical (symbol : List Char) (lines : List (List Char))
    (before gap arguments between : List Char) : Prop where
  begins : header symbol before gap arguments between ++ ['\x7b'] <+: lines.flatten
  sameLine : ∃ line ∈ lines.head?, before ++ (symbol ++ (gap ++ ['('])) <+: line
  declarator : ∀ c ∈ before, isAsciiWord c = true ∨ c = ' ' ∨ c = '\t' ∨ c = '*'
  first : ∀ c ∈ before.head?, isAsciiWord c = true ∧ c.isDigit = false
  last : ∀ c ∈ before.getLast?, c = ' ' ∨ c = '\t' ∨ c = '*'
  noStatement : ∀ word ∈ declaratorWords before, word ∉ statementWords
  blank : ∀ c ∈ gap, c = ' ' ∨ c = '\t'
  balanced : Closes 0 arguments
  bare : ∀ c ∈ arguments, c ∉ ['"', '\'', '/', ';', '\x7b', '\x7d']
  apart : ∀ c ∈ between, isBlank c = true

theorem afterArguments?_append {depth : Nat} {arguments : List Char}
    (closes : Closes depth arguments) (rest : List Char) :
    afterArguments? (depth + 1) (arguments ++ ')' :: rest) = some rest := by
  induction arguments generalizing depth with
  | nil =>
      have none : depth = 0 := by simpa using closes.total.symm
      subst none
      rfl
  | cons c arguments ih =>
      rw [List.cons_append, afterArguments?]
      by_cases opens : c = '('
      · subst opens
        exact ih ((closes_cons (by simp)).mp closes)
      · by_cases closed : c = ')'
        · subst closed
          -- The list would be closed too early if nothing but the first parenthesis were open.
          obtain ⟨depth, rfl⟩ : ∃ less, depth = less + 1 := by
            have := closes.within [')'] (List.prefix_append [')'] arguments)
            exact ⟨depth - 1, by simp at this; omega⟩
          have less : ((depth + 1 : Nat) : Int) + 1 - 1 = depth + 1 := by omega
          rw [if_neg (by decide), if_pos (by decide), if_neg (by omega), less]
          exact ih ((closes_cons (by simp)).mp closes)
        · rw [if_neg (by simpa), if_neg (by simpa)]
          exact ih ((closes_cons (by simp [opens, closed])).mp closes)

theorem opensBody_append {arguments between : List Char} (balanced : Closes 0 arguments)
    (noPrototype : ∀ c ∈ between, c ≠ '\x7b' ∧ c ≠ ';') (rest : List Char) :
    opensBody ('(' :: (arguments ++ ')' :: (between ++ '\x7b' :: rest))) = true := by
  have after : afterArguments? 0 ('(' :: (arguments ++ ')' :: (between ++ '\x7b' :: rest))) =
      some (between ++ '\x7b' :: rest) :=
    afterArguments?_append balanced _
  have none : between.find? (fun c => c == '\x7b' || c == ';') = none := by
    rw [List.find?_eq_none]
    intro c member
    simpa using noPrototype c member
  simp [opensBody, after, List.find?_append, none]

theorem isBlank_of_isAsciiWord {c : Char} (word : isAsciiWord c = true) : isBlank c = false := by
  by_contra blank
  have extends_ := extendsName_of_isAsciiWord word
  rw [extendsName_of_isBlank (by simpa using blank)] at extends_
  cases extends_

section

variable {symbol gap : List Char}

theorem eq_of_first_call {before before' gap' arguments arguments' : List Char}
    (filled : symbol ≠ []) (name : ∀ c ∈ symbol, isAsciiWord c = true)
    (blank : ∀ c ∈ gap, isBlank c = true) (blank' : ∀ c ∈ gap', isBlank c = true)
    (closed : '(' ∉ before) (closed' : '(' ∉ before')
    (same : before ++ (symbol ++ (gap ++ '(' :: arguments)) =
      before' ++ (symbol ++ (gap' ++ '(' :: arguments'))) : before = before' := by
  have front {before gap arguments : List Char} (blank : ∀ c ∈ gap, isBlank c = true)
      (closed : '(' ∉ before) :
      dropEndWhile isBlank ((before ++ (symbol ++ (gap ++ '(' :: arguments))).takeWhile
        (· != '(')) = before ++ symbol := by
    have parts : before ++ (symbol ++ (gap ++ '(' :: arguments)) =
        (before ++ symbol ++ gap) ++ '(' :: arguments := by
      simp
    have all : ∀ c ∈ before ++ symbol ++ gap, (c != '(') = true := by
      simp only [List.mem_append, bne_iff_ne]
      rintro c ((member | member) | member) rfl
      · exact closed member
      · exact absurd (name '(' member) (by decide)
      · exact absurd (blank '(' member) (by decide)
    rw [parts, takeWhile_append_of_head? all (by simp), dropEndWhile_append blank]
    intro c last
    rw [List.getLast?_append_of_ne_nil before filled] at last
    exact isBlank_of_isAsciiWord (name c (List.mem_of_getLast? last))
  have whole := @front before gap arguments blank closed
  rw [same, front blank' closed'] at whole
  exact (List.append_cancel_right whole).symm

theorem findCall?_append {before : List Char} {previous : Option Char} (filled : symbol ≠ [])
    (name : ∀ c ∈ symbol, isAsciiWord c = true) (blank : ∀ c ∈ gap, isBlank c = true)
    (closed : '(' ∉ before) (alone : (before.getLast?.or previous).any extendsName = false)
    (arguments : List Char) :
    findCall? symbol previous (before ++ (symbol ++ (gap ++ '(' :: arguments))) =
      some (before, '(' :: arguments) := by
  induction before generalizing previous with
  | nil =>
      have alone : previous.any extendsName = false := alone
      have here : callAt? symbol (symbol ++ (gap ++ '(' :: arguments)) = some ('(' :: arguments) :=
        callAt?_eq_some.mpr ⟨gap, arguments, blank, rfl, rfl⟩
      rw [List.nil_append, findCall?.eq_def, here, alone]
      rfl
  | cons c before ih =>
      rw [getLast?_cons_or] at alone
      have later := ih (fun member => closed (List.mem_cons_of_mem c member)) alone
      rw [findCall?.eq_def]
      split
      case h_1 call here =>
        -- A call that begins here would have its parenthesis at another place.
        obtain ⟨⟨gap', blank', text_eq⟩, ⟨arguments', rfl⟩, -⟩ := CallIn.of_here here
        have before_eq := eq_of_first_call filled name blank blank' closed (by simp) text_eq
        cases before_eq
      case h_2 =>
        rw [List.cons_append]
        simp only
        rw [later]
        rfl

end

section

variable {symbol before gap arguments between : List Char} {line : List Char}
  {rest : List (List Char)}

theorem startsWithComment_eq_false {c : Char} {text : List Char} (first : text.head? = some c)
    (slash : c ≠ '/') (star : c ≠ '*') : startsWithComment text = false := by
  obtain ⟨text, rfl⟩ := List.head?_eq_some_iff.mp first
  simp [startsWithComment, List.isPrefixOf, Ne.symm slash, star]

theorem head?_trim {c : Char} {text : List Char} (first : text.head? = some c)
    (solid : isBlank c = false) : (trim text).head? = some c := by
  obtain ⟨text, rfl⟩ := List.head?_eq_some_iff.mp first
  rw [trim, List.dropWhile_cons_of_neg (by simp [solid]), head?_dropEndWhile solid]

theorem trim_subset (text : List Char) : trim text ⊆ text := by
  have initial : trim text <+: text.dropWhile isBlank := dropEndWhile_prefix isBlank _
  exact fun _ member => (List.dropWhile_suffix _).subset (initial.subset member)

theorem mem_trim {c : Char} {text : List Char} (member : c ∈ text) (solid : isBlank c = false) :
    c ∈ trim text :=
  mem_dropEndWhile (mem_dropWhile member solid) solid

theorem chomp_chomp (line : List Char) : chomp (chomp line) = chomp line :=
  dropEndWhile_of_getLast? fun _ last => getLast?_dropEndWhile last

theorem windowCode_chomp (inComment : Bool) (line : List Char) (rest : List (List Char)) :
    windowCode inComment (chomp line :: rest) = windowCode inComment (line :: rest) := by
  rw [windowCode_eq, windowCode_eq, codes, codes, chomp_chomp]

theorem Canonical.not_mem_header (h : Canonical symbol (line :: rest) before gap arguments between)
    (name : ∀ c ∈ symbol, isAsciiWord c = true) {c : Char} (noWord : isAsciiWord c = false)
    (noBlank : isBlank c = false) (noMark : c ∉ ['(', ')', '*']) (noArgument : c ∉ arguments) :
    c ∉ header symbol before gap arguments between := by
  simp only [List.mem_cons, List.not_mem_nil, or_false, not_or] at noMark
  obtain ⟨noOpen, noClose, noStar⟩ := noMark
  have noSpace : c ≠ ' ' ∧ c ≠ '\t' := by
    constructor <;> rintro rfl <;> exact absurd noBlank (by decide)
  have noType : c ∉ before := fun member => by
    rcases h.declarator c member with word | space | tab | star
    · rw [word] at noWord
      cases noWord
    · exact noSpace.1 space
    · exact noSpace.2 tab
    · exact noStar star
  have noName : c ∉ symbol := fun member => by
    rw [name c member] at noWord
    cases noWord
  have noGap : c ∉ gap := fun member => (h.blank c member).elim noSpace.1 noSpace.2
  have noRest : c ∉ between := fun member => by
    rw [h.apart c member] at noBlank
    cases noBlank
  simp [header, noType, noName, noGap, noOpen, noArgument, noClose, noRest]

theorem Canonical.isPlain_header (h : Canonical symbol (line :: rest) before gap arguments between)
    (name : ∀ c ∈ symbol, isAsciiWord c = true) :
    ∀ c ∈ header symbol before gap arguments between, isPlain c = true := by
  intro c member
  simp only [isPlain, Bool.and_eq_true, bne_iff_ne]
  refine ⟨⟨?_, ?_⟩, ?_⟩ <;> rintro rfl <;>
    exact h.not_mem_header name (by decide) (by decide) (by decide)
      (fun inside => h.bare _ inside (by decide)) member

theorem Canonical.exists_line_eq
    (h : Canonical symbol (line :: rest) before gap arguments between) :
    ∃ more, line = before ++ (symbol ++ (gap ++ '(' :: more)) := by
  obtain ⟨_, first, more, line_eq⟩ := h.sameLine
  obtain rfl := Option.some.inj first
  exact ⟨more, by rw [← line_eq]; simp⟩

theorem Canonical.opensBody {more : List Char}
    (h : Canonical symbol (line :: rest) before gap arguments between)
    (name : ∀ c ∈ symbol, isAsciiWord c = true)
    (line_eq : line = before ++ (symbol ++ (gap ++ '(' :: more))) :
    Source.opensBody (windowCode false (('(' :: more) :: rest)) = true := by
  have initial : '(' :: (arguments ++ ')' :: (between ++ ['\x7b'])) <+:
      (('(' :: more) :: rest).flatten := by
    have begins := h.begins
    simp only [header, line_eq, List.flatten_cons, List.append_assoc,
      List.prefix_append_right_inj] at begins
    simpa using begins
  have plain : ∀ c ∈ '(' :: (arguments ++ ')' :: (between ++ ['\x7b'])), isPlain c = true := by
    have all := h.isPlain_header name
    simp only [header, List.forall_mem_append, List.forall_mem_cons] at all
    obtain ⟨-, -, -, open_, inside, close, later⟩ := all
    simp only [List.forall_mem_append, List.forall_mem_cons]
    exact ⟨open_, inside, close, later, by decide, List.forall_mem_nil _⟩
  obtain ⟨later, marks_eq⟩ := filter_prefix_codes plain initial
  have marks : later.filter isMark = later := by
    have whole := congrArg (List.filter isMark) marks_eq
    rw [List.filter_append, List.filter_filter, List.filter_filter] at whole
    simp only [Bool.and_self] at whole
    exact List.append_cancel_left (whole.trans marks_eq.symm)
  have noPrototype : ∀ c ∈ between, c ≠ '\x7b' ∧ c ≠ ';' := by
    intro c member
    have blank := h.apart c member
    constructor <;> rintro rfl <;> exact absurd blank (by decide)
  -- Only the marks matter, and up to the brace they are those of the text.
  rw [opensBody_windowCode, ← marks_eq, ← marks, ← List.filter_append, opensBody_filter]
  simpa using opensBody_append h.balanced noPrototype later

theorem Canonical.isDeclarator
    (h : Canonical symbol (line :: rest) before gap arguments between) (typed : before ≠ []) :
    before.any (!isBlank ·) = true ∧ Source.isDeclarator before = true := by
  obtain ⟨c, later, rfl⟩ := List.exists_cons_of_ne_nil typed
  obtain ⟨word, noDigit⟩ := h.first c rfl
  have chars : ∀ d ∈ c :: later, isDeclaratorChar d = true := by
    intro d member
    rcases h.declarator d member with word | rfl | rfl | rfl
    · rw [isDeclaratorChar, isWord_of_isAsciiWord word, Bool.true_or, Bool.true_or]
    · decide
    · decide
    · decide
  constructor
  · simp [isBlank_of_isAsciiWord word]
  · simp only [Source.isDeclarator, Bool.and_eq_true]
    refine ⟨⟨by simp [word, noDigit], List.all_eq_true.mpr chars⟩, ?_⟩
    rw [List.all_eq_true]
    intro letters member
    have allowed := h.noStatement (String.ofList letters) (List.mem_map_of_mem member)
    simpa using allowed

/-- A line that is taken for a statement ends with a semicolon and holds no brace; here the text up
to the brace holds no semicolon. -/
theorem Canonical.noStatement_line
    (h : Canonical symbol (line :: rest) before gap arguments between)
    (name : ∀ c ∈ symbol, isAsciiWord c = true) :
    ((trim (chomp line)).getLast? == some ';' && !(trim (chomp line)).contains '\x7b') = false := by
  by_cases brace : '\x7b' ∈ line
  · have kept : '\x7b' ∈ trim (chomp line) :=
      mem_trim (mem_dropEndWhile brace (by decide)) (by decide)
    simp [kept]
  · have noSemicolon : ';' ∉ line := by
      have begins := h.begins
      rw [List.flatten_cons] at begins
      -- A line without a brace ends within the text up to the brace.
      have initial : line <+: header symbol before gap arguments between := by
        rcases List.prefix_or_prefix_of_prefix (List.prefix_append line _) begins with
          within | beyond
        · rcases List.prefix_concat_iff.mp within with rfl | shorter
          · exact absurd (by simp) brace
          · exact shorter
        · exact absurd (beyond.subset (by simp)) brace
      exact fun member => h.not_mem_header name (by decide) (by decide) (by decide)
        (fun inside => h.bare _ inside (by decide)) (initial.subset member)
    have last : (trim (chomp line)).getLast? ≠ some ';' := fun last =>
      noSemicolon ((prefix_chomp line).subset (trim_subset _ (List.mem_of_getLast? last)))
    simp [last]

theorem Canonical.exists_head? (h : Canonical symbol (line :: rest) before gap arguments between)
    (filled : symbol ≠ []) (name : ∀ c ∈ symbol, isAsciiWord c = true) (more : List Char) :
    ∃ c, (before ++ (symbol ++ more)).head? = some c ∧ isAsciiWord c = true := by
  obtain ⟨d, others, rfl⟩ := List.exists_cons_of_ne_nil filled
  cases before with
  | nil => exact ⟨d, rfl, name d List.mem_cons_self⟩
  | cons c before => exact ⟨c, rfl, (h.first c rfl).1⟩

theorem Canonical.declarator?_eq {more : List Char}
    (h : Canonical symbol (line :: rest) before gap arguments between) (filled : symbol ≠ [])
    (name : ∀ c ∈ symbol, isAsciiWord c = true)
    (line_eq : line = before ++ (symbol ++ (gap ++ '(' :: more))) :
    declarator? symbol line false = some (chomp ('(' :: more)) := by
  obtain ⟨arguments', call_eq⟩ : ∃ arguments', chomp ('(' :: more) = '(' :: arguments' :=
    List.head?_eq_some_iff.mp (head?_dropEndWhile (by decide) more)
  have chomped : chomp line = before ++ (symbol ++ (gap ++ '(' :: arguments')) := by
    have some : chomp ('(' :: more) ≠ [] := by simp [call_eq]
    have grouped : line = (before ++ symbol ++ gap) ++ '(' :: more := by simp [line_eq]
    rw [grouped, chomp, dropEndWhile_append_of_ne_nil some, ← chomp, call_eq]
    simp
  have blank : ∀ c ∈ gap, isBlank c = true := fun c member => by
    rcases h.blank c member with rfl | rfl <;> decide
  have closed : '(' ∉ before := fun member => by
    rcases h.declarator _ member with word | space | tab | star
    · exact absurd word (by decide)
    · cases space
    · cases tab
    · cases star
  have alone : (before.getLast?.or none).any extendsName = false := by
    rw [Option.or_none]
    cases last : before.getLast? with
    | none => rfl
    | some c => rcases h.last c last with rfl | rfl | rfl <;> decide
  have found := findCall?_append filled name blank closed alone arguments'
  rw [← chomped] at found
  obtain ⟨c, first, word⟩ := h.exists_head? filled name (gap ++ '(' :: arguments')
  rw [← chomped] at first
  have solid := isBlank_of_isAsciiWord word
  have noComment : startsWithComment (trim (chomp line)) = false := by
    refine startsWithComment_eq_false (head?_trim first solid) ?_ ?_ <;> rintro rfl <;>
      exact absurd word (by decide)
  have code : isCodeAfter before = true := by
    have plain : ∀ c ∈ before, isPlain c = true := by
      have all := h.isPlain_header name
      rw [header, List.forall_mem_append] at all
      exact all.1
    have mark : strip false ['\x00'] = (['\x00'], false) := by
      rw [strip_cons (by decide), strip_nil]
    rw [isCodeAfter, strip_append plain, mark]
    simp
  have declares : (if before.any (!isBlank ·) then Source.isDeclarator before
      else !(chomp line).head?.any isBlank) = true := by
    by_cases typed : before = []
    · simp [typed, first, solid]
    · obtain ⟨words, accepted⟩ := h.isDeclarator typed
      rw [words, if_pos rfl, accepted]
  simp only [declarator?, noComment, found, code, declares, h.noStatement_line name, call_eq,
    Bool.or_self, Bool.false_eq_true, if_false, Bool.and_self, Bool.not_false, if_true]

end

theorem isDefinition_of_canonical {symbol before gap arguments between : List Char}
    {lines : List (List Char)} {index : Nat} {context : Int} (filled : symbol ≠ [])
    (name : ∀ c ∈ symbol, isAsciiWord c = true) (nonneg : 0 ≤ context)
    (canonical : Canonical symbol ((lines.drop index).take (context + 1).toNat)
      before gap arguments between) :
    isDefinition context lines index symbol false = true := by
  obtain ⟨count, count_eq⟩ : ∃ count, (context + 1).toNat = count + 1 :=
    ⟨context.toNat, by omega⟩
  rw [isDefinition, if_neg (by omega), Int.toNat_natCast, opensDefinition.eq_def, count_eq]
  rw [count_eq] at canonical
  cases from_index : lines.drop index with
  | nil =>
      rw [from_index] at canonical
      obtain ⟨_, none, -⟩ := canonical.sameLine
      cases none
  | cons line rest =>
      rw [from_index, List.take_succ_cons] at canonical
      obtain ⟨more, line_eq⟩ := canonical.exists_line_eq
      simp only [canonical.declarator?_eq filled name line_eq, List.take_succ_cons]
      rw [windowCode_chomp]
      exact canonical.opensBody name line_eq

section

variable {settings : Settings} {root : Root} {context : Int} {function : String}

theorem exists_everyDefinition (window : settings.contextLines = some context) (root : Root)
    (symbol : List Char) :
    ∃ hits, root.everyDefinition settings symbol = .ok hits ∧
      ∀ source ∈ root.files settings, ∀ text, Shelf.load root.tree source.path = some text →
        ∀ index < (sourceLines text).length,
          isDefinition context (sourceLines text) index symbol
              (commentBefore (sourceLines text) index) = true →
            { file := source.relative, line := index + 1, text } ∈ hits := by
  have each (source : String × List Char) : settings.everyPlace symbol source =
      .ok ((((List.range (sourceLines source.2).length).filter fun index : Nat =>
        isDefinition context (sourceLines source.2) index symbol
          (commentBefore (sourceLines source.2) index)).map (· + 1)).map fun line =>
            { file := source.1, line, text := source.2 }) := by
    rw [Settings.everyPlace, Settings.everyDefinition_eq_filter window]
    rfl
  refine ⟨_, flatMapM_eq_ok_flatMap fun source _ => each source, ?_⟩
  intro source among text loaded index inside accepted
  refine List.mem_flatMap.mpr ⟨(source.relative, text), ?_, ?_⟩
  · exact List.mem_filterMap.mpr ⟨source, among, by rw [loaded, Option.map_some]⟩
  · refine List.mem_map_of_mem (List.mem_map_of_mem ?_)
    exact List.mem_filter.mpr ⟨List.mem_range.mpr inside, accepted⟩

theorem Settings.exists_body (ahead : settings.lookahead.isSome = true)
    (slice : settings.fallbackLines.isSome = true) (limit : settings.maxBodyLines.isSome = true)
    (lines : List (List Char)) (start : Int) : ∃ body, settings.body lines start = .ok body := by
  obtain ⟨lookahead, ahead⟩ := Option.isSome_iff_exists.mp ahead
  obtain ⟨fallback, slice⟩ := Option.isSome_iff_exists.mp slice
  obtain ⟨maxLines, limit⟩ := Option.isSome_iff_exists.mp limit
  by_cases outside : start < 1 ∨ lines.length < start
  · exact ⟨_, if_pos outside⟩
  · simp [Settings.body, if_neg outside, ahead, slice, limit]

end

/-- Every line that begins like a plain definition of an identifier, with no comment open before it,
passes the test. In a file that is searched it is a candidate of the resolver, which has a result if
the numbers that bound a body are set. -/
theorem resolve_lists_canonical {function : String} {context : Int} {lines : List (List Char)}
    {index : Nat} {before gap arguments between : List Char} (identifier : IsIdentifier function)
    (nonneg : 0 ≤ context) (outside : commentBefore lines index = false)
    (canonical : Canonical function.toList ((lines.drop index).take (context + 1).toNat)
      before gap arguments between) :
    isDefinition context lines index function.toList (commentBefore lines index) = true ∧
      ∀ (settings : Settings) (root : Root) (earlier : List String),
        settings.contextLines = some context → settings.isExpired = .ok false →
        ∀ source ∈ root.files settings, ∀ text, Shelf.load root.tree source.path = some text →
          sourceLines text = lines →
            let resolved := (resolve settings root (shelfAfter settings root earlier) function).2
            (∀ location, resolved = .ok location →
              (.str source.relative, (index + 1 : Int)) ∈ location.candidates) ∧
            (settings.lookahead.isSome → settings.fallbackLines.isSome →
              settings.maxBodyLines.isSome → ∃ location, resolved = .ok location) := by
  have accepted := isDefinition_of_canonical identifier.ne_nil identifier.chars nonneg canonical
  rw [← outside] at accepted
  refine ⟨accepted, ?_⟩
  rintro settings root earlier window alive source among text loaded rfl resolved
  have inside : index < (sourceLines text).length := by
    by_contra beyond
    obtain ⟨_, none, -⟩ := canonical.sameLine
    rw [List.drop_eq_nil_of_le (Nat.le_of_not_lt beyond), List.take_nil] at none
    cases none
  obtain ⟨hits, all, listed⟩ := exists_everyDefinition window root function.toList
  have member := listed source among text loaded index inside accepted
  obtain ⟨first, others, rfl⟩ := List.exists_cons_of_ne_nil (List.ne_nil_of_mem member)
  rw [← identifier.baseSymbol] at all
  have resolved_eq : resolved = _ :=
    resolve_of_hits alive (shelfAfter_faithful settings root earlier) all
  constructor
  · intro location found
    rw [resolved_eq] at found
    obtain ⟨body, -, rfl⟩ := of_map_ok found
    simp only [Location.ofOutcome, List.map_map, List.mem_map]
    exact ⟨_, member, rfl⟩
  · intro ahead slice limit
    obtain ⟨body, body_eq⟩ :=
      Settings.exists_body ahead slice limit (sourceLines first.text) first.line
    rw [resolved_eq, body_eq]
    exact ⟨_, rfl⟩

theorem resolve_lists_canonical_sample :
    IsIdentifier "f" ∧ (0 : Int) ≤ 3 ∧ commentBefore (sourceLines sampleText) 1 = false ∧
      Canonical "f".toList (((sourceLines sampleText).drop 1).take ((3 : Int) + 1).toNat)
        "int ".toList [] "void".toList "\n".toList ∧
      isDefinition 3 (sourceLines sampleText) 1 "f".toList false = true ∧ ∃ location,
        (resolve sampleSettings sampleRoot (shelfAfter sampleSettings sampleRoot []) "f").2 =
          .ok location ∧
        (.str "net/a.c", 2) ∈ location.candidates := by
  have identifier : IsIdentifier "f" :=
    ⟨List.forall_mem_singleton.mpr (by decide), 'f', rfl, by decide⟩
  have outside : commentBefore (sourceLines sampleText) 1 = false := by cbv
  have window : ((sourceLines sampleText).drop 1).take ((3 : Int) + 1).toNat =
      ["int f(void)\n".toList, "\x7b\n".toList, "\x7d\n".toList] := by
    cbv
  have canonical : Canonical "f".toList
      (((sourceLines sampleText).drop 1).take ((3 : Int) + 1).toNat)
      "int ".toList [] "void".toList "\n".toList := by
    have words : declaratorWords "int ".toList = ["int"] := by decide +kernel
    rw [window]
    exact
      { begins := ⟨"\n\x7d\n".toList, by decide⟩
        sameLine := ⟨_, rfl, "void)\n".toList, by decide⟩
        declarator := by simp [isAsciiWord]
        first := by rintro c ⟨⟩; decide
        last := by rintro c ⟨⟩; decide
        noStatement := by rw [words]; decide
        blank := List.forall_mem_nil _
        balanced := .of_not_mem (by decide) (by decide)
        bare := by simp
        apart := by simp [isBlank] }
  obtain ⟨accepted, lists⟩ := resolve_lists_canonical identifier (by decide) outside canonical
  have among : { path := "/net/a.c", relative := "net/a.c", real := ["net", "a.c"] } ∈
      sampleRoot.files sampleSettings := by
    rw [sampleRoot_files]
    exact List.mem_singleton_self _
  have loaded : Shelf.load sampleRoot.tree "/net/a.c" = some sampleText := by cbv
  obtain ⟨listed, resolves⟩ :=
    lists sampleSettings sampleRoot [] rfl rfl _ among sampleText loaded rfl
  obtain ⟨location, found⟩ := resolves rfl rfl rfl
  rw [outside] at accepted
  exact ⟨identifier, by decide, outside, canonical, accepted, location, found,
    listed location found⟩

end CallTimeline.Source
