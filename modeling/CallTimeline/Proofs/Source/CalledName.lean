import CallTimeline.Proofs.Source.Paths
import CallTimeline.Proofs.Source.Shape

namespace CallTimeline.Source

open Text

/-- The name before the first parenthesis of a line: what stands there up to blanks, from the last
character that is not part of a name. -/
def calledName (line : List Char) : List Char :=
  (dropEndWhile isBlank (line.takeWhile (· != '('))).rtakeWhile extendsName

theorem rtakeWhile_append {before name : List Char} {p : Char → Bool}
    (all : ∀ c ∈ name, p c = true) (ends : before.getLast?.any p = false) :
    (before ++ name).rtakeWhile p = name := by
  have behind : ∀ c ∈ before.reverse.head?, p c = false := by
    intro c last
    rw [List.head?_reverse] at last
    rwa [last] at ends
  rw [List.rtakeWhile, List.reverse_append,
    takeWhile_append_of_head? (fun c member => all c (List.mem_reverse.mp member)) behind,
    List.reverse_reverse]

theorem dropEndWhile_append {front gap : List Char} {p : Char → Bool}
    (all : ∀ c ∈ gap, p c = true) (ends : ∀ c ∈ front.getLast?, p c = false) :
    dropEndWhile p (front ++ gap) = front := by
  rw [dropEndWhile, List.reverse_append,
    dropWhile_append_of_head? (fun c member => all c (List.mem_reverse.mp member))
      (by simpa using ends), List.reverse_reverse]

theorem isWord_of_isAsciiWord {c : Char} (word : isAsciiWord c = true) : isWord c = true := by
  have ascii : c.toNat < 0x80 := by
    simp only [isAsciiWord, Char.isAlphanum, Char.isAlpha, Char.isUpper, Char.isLower,
      Char.isDigit, Bool.or_eq_true, Bool.and_eq_true, decide_eq_true_eq, beq_iff_eq] at word
    rcases word with ((upper | lower) | digit) | rfl
    · exact Nat.lt_of_le_of_lt upper.2 (by decide)
    · exact Nat.lt_of_le_of_lt lower.2 (by decide)
    · exact Nat.lt_of_le_of_lt digit.2 (by decide)
    · decide
  rw [isWord, if_pos ascii, word]

theorem extendsName_of_isAsciiWord {c : Char} (word : isAsciiWord c = true) :
    extendsName c = true := by
  rw [extendsName, isWord_of_isAsciiWord word, Bool.true_or]

theorem IsIdentifier.ne_nil {name : String} (identifier : IsIdentifier name) :
    name.toList ≠ [] := by
  obtain ⟨c, first, -⟩ := identifier.first
  intro empty
  rw [empty] at first
  cases first

theorem CallIn.calledName {symbol line before call : List Char} (some : symbol ≠ [])
    (name : ∀ c ∈ symbol, isAsciiWord c = true)
    (declarator : ∀ c ∈ before, isDeclaratorChar c = true)
    (here : CallIn symbol none (chomp line) before call) :
    '(' ∈ line ∧ Source.calledName line = symbol := by
  obtain ⟨⟨gap, blank, chomped⟩, ⟨arguments, call_eq⟩, alone⟩ := here
  obtain ⟨ends, line_eq⟩ := prefix_chomp line
  have parts : line = (before ++ symbol ++ gap) ++ '(' :: (arguments ++ ends) := by
    rw [← line_eq, chomped, call_eq]
    simp
  have closed : ∀ c ∈ before ++ symbol ++ gap, (c != '(') = true := by
    intro c member
    refine bne_iff_ne.mpr ?_
    rintro rfl
    simp only [List.mem_append] at member
    rcases member with (member | member) | member
    · exact absurd (declarator '(' member) (by decide)
    · exact absurd (name '(' member) (by decide)
    · exact absurd (blank '(' member) (by decide)
  have front : line.takeWhile (· != '(') = before ++ symbol ++ gap := by
    rw [parts]
    exact takeWhile_append_of_head? closed (by simp)
  have trimmed : dropEndWhile isBlank (before ++ symbol ++ gap) = before ++ symbol := by
    refine dropEndWhile_append blank fun c last => ?_
    rw [List.getLast?_append_of_ne_nil before some] at last
    have inName := extendsName_of_isAsciiWord (name c (List.mem_of_getLast? last))
    refine Bool.eq_false_iff.mpr fun isBlank => ?_
    rw [extendsName_of_isBlank isBlank] at inName
    cases inName
  refine ⟨by simp [parts], ?_⟩
  rw [Source.calledName, front, trimmed]
  exact rtakeWhile_append (fun c member => extendsName_of_isAsciiWord (name c member))
    (by simpa using alone)

theorem calledName_of_isDefinition {context index : Int} {lines : List (List Char)} {name : String}
    {inComment : Bool} (identifier : IsIdentifier name)
    (accepted : isDefinition context lines index name.toList inComment = true) :
    ∃ line, 0 ≤ index ∧ lines[index.toNat]? = some line ∧ '(' ∈ line ∧
      calledName line = name.toList := by
  obtain ⟨line, rest, call, within, from_index, found, -⟩ := isDefinition_eq_true accepted
  obtain ⟨-, before, here, -, declares⟩ := declarator?_eq_some found
  refine ⟨line, within, ?_,
    here.calledName identifier.ne_nil identifier.chars (declarator_of_declares declares).1⟩
  rw [← List.head?_drop, from_index, List.head?_cons]

theorem calledName_of_settings {settings : Settings} {lines : List (List Char)} {index : Nat}
    {name : String} (identifier : IsIdentifier name)
    (accepted : settings.isDefinition name.toList lines index = .ok true) :
    ∃ line, lines[index]? = some line ∧ calledName line = name.toList := by
  obtain ⟨context, -, accepted⟩ := contextLines_of_isDefinition accepted
  obtain ⟨line, -, here, -, called⟩ := calledName_of_isDefinition identifier accepted
  exact ⟨line, here, called⟩

section

variable {settings : Settings} {tree : FileTree} {path : String} {f g : String}
  {earlier earlier' : List String} {location location' : Location}

theorem candidates_disjoint (wellNamed : tree.root.WellNamed)
    (inside : ∀ directory ∈ settings.searchDirs, ".." ∉ Path.segments directory)
    (name : IsIdentifier (Kernel.baseSymbol f)) (name' : IsIdentifier (Kernel.baseSymbol g))
    (different : Kernel.baseSymbol f ≠ Kernel.baseSymbol g)
    (resolved : (resolve settings (Root.of tree path)
      (shelfAfter settings (Root.of tree path) earlier) f).2 = .ok location)
    (resolved' : (resolve settings (Root.of tree path)
      (shelfAfter settings (Root.of tree path) earlier') g).2 = .ok location') :
    location.candidates.Disjoint location'.candidates := by
  rintro ⟨file, line⟩ listed listed'
  obtain ⟨hits, all, hit, member, rfl, rfl⟩ :=
    hit_of_resolve (shelfAfter_faithful settings _ earlier) resolved listed
  obtain ⟨hits', all', hit', member', file_eq, line_eq⟩ :=
    hit_of_resolve (shelfAfter_faithful settings _ earlier') resolved' listed'
  obtain ⟨source, among, loaded, relative, index, number, -, accepted⟩ :=
    line_of_everyDefinition all member
  obtain ⟨source', among', loaded', relative', index', number', -, accepted'⟩ :=
    line_of_everyDefinition all' member'
  -- Both places are one line of one text, and this line names one function.
  have same : source.relative = source'.relative := by
    rw [← relative, ← relative']
    exact Json.str.inj file_eq
  obtain text_eq := text_eq_of_relative_eq wellNamed inside among among' same loaded loaded'
  obtain rfl : index = index' := by omega
  obtain ⟨text, here, called⟩ := calledName_of_settings name accepted
  obtain ⟨text', here', called'⟩ := calledName_of_settings name' accepted'
  rw [text_eq, here'] at here
  cases here
  exact different (String.toList_inj.mp (called.symm.trans called'))

/-- No line is the definition of two functions: no place is a candidate for both of two functions
with different base symbols, since the name before its first parenthesis is the base symbol. -/
theorem resolve_candidates_disjoint (wellNamed : tree.root.WellNamed)
    (inside : ∀ directory ∈ settings.searchDirs, ".." ∉ Path.segments directory)
    (name : IsIdentifier (Kernel.baseSymbol f)) (name' : IsIdentifier (Kernel.baseSymbol g))
    (different : Kernel.baseSymbol f ≠ Kernel.baseSymbol g)
    (resolved : (resolve settings (Root.of tree path)
      (shelfAfter settings (Root.of tree path) earlier) f).2 = .ok location)
    (resolved' : (resolve settings (Root.of tree path)
      (shelfAfter settings (Root.of tree path) earlier') g).2 = .ok location') :
    location.candidates.Disjoint location'.candidates ∧
      ∀ (context index : Int) (lines : List (List Char)) (symbol : String) (inComment : Bool),
        IsIdentifier symbol → isDefinition context lines index symbol.toList inComment = true →
        ∃ line, 0 ≤ index ∧ lines[index.toNat]? = some line ∧ '(' ∈ line ∧
          calledName line = symbol.toList :=
  ⟨candidates_disjoint wellNamed inside name name' different resolved resolved',
    fun _ _ _ _ _ identifier accepted => calledName_of_isDefinition identifier accepted⟩

end

def coreText : List Char :=
  "int f_core(void)\n\x7b\n\x7d\nint f(void)\n\x7b\n\x7d\n".toList

theorem coreText_wellNamed : (textRoot coreText).tree.root.WellNamed := by
  have net : Path.IsName "net" := ⟨by decide, by decide, by decide, by decide⟩
  have file : Path.IsName "a.c" := ⟨by decide, by decide, by decide, by decide⟩
  refine .dir (List.forall_mem_singleton.mpr net) (List.forall_mem_singleton.mpr ?_)
  exact .dir (List.forall_mem_singleton.mpr file) (List.forall_mem_singleton.mpr (.file _))

theorem resolve_coreText {function : String} {line : Nat} {body : Body}
    (found : sampleSettings.everyDefinition (Kernel.baseSymbol function).toList
      (sourceLines coreText) = .ok [line])
    (body_eq : sampleSettings.body (sourceLines coreText) line = .ok body) :
    (resolve sampleSettings (Root.of (textRoot coreText).tree "/") {} function).2 =
      .ok (Location.ofOutcome function (.found
        { file := "net/a.c", line, body, candidates := [("net/a.c", line)] })) := by
  have root : Root.of (textRoot coreText).tree "/" = textRoot coreText := by
    have path : Path.absolute (textRoot coreText).tree.workingPath "/" = "/" := by cbv
    rw [Root.of, path]
    rfl
  have loaded : Shelf.load (textRoot coreText).tree "/net/a.c" = some coreText := by cbv
  rw [root]
  exact resolve_textRoot loaded found body_eq

theorem resolve_candidates_disjoint_core :
    ∃ location location',
      (resolve sampleSettings (Root.of (textRoot coreText).tree "/") {} "f").2 = .ok location ∧
      (resolve sampleSettings (Root.of (textRoot coreText).tree "/") {} "f_core").2 =
        .ok location' ∧
      location.candidates = [(.str "net/a.c", 4)] ∧
      location'.candidates = [(.str "net/a.c", 1)] ∧
      location.candidates.Disjoint location'.candidates ∧
      calledName "int f(void)\n".toList = "f".toList := by
  have f : Kernel.baseSymbol "f" = "f" := by decide
  have core : Kernel.baseSymbol "f_core" = "f_core" := by decide
  have identifier : IsIdentifier "f" :=
    ⟨List.forall_mem_singleton.mpr (by decide), 'f', rfl, by decide⟩
  have identifier' : IsIdentifier "f_core" := ⟨List.all_eq_true.mp rfl, 'f', rfl, by decide⟩
  have places : sampleSettings.everyDefinition (Kernel.baseSymbol "f").toList
      (sourceLines coreText) = .ok [4] := by
    rw [f]
    cbv
  have places' : sampleSettings.everyDefinition (Kernel.baseSymbol "f_core").toList
      (sourceLines coreText) = .ok [1] := by
    rw [core]
    cbv
  have body_eq : sampleSettings.body (sourceLines coreText) 4 =
      .ok { text := "int f(void)\n\x7b\n\x7d\n", lineCount := 3, status := .complete } := by
    cbv
  have body_eq' : sampleSettings.body (sourceLines coreText) 1 =
      .ok { text := "int f_core(void)\n\x7b\n\x7d\n", lineCount := 3, status := .complete } := by
    cbv
  have resolved := resolve_coreText places body_eq
  have resolved' := resolve_coreText places' body_eq'
  have inside : ∀ directory ∈ sampleSettings.searchDirs, ".." ∉ Path.segments directory :=
    List.forall_mem_singleton.mpr (by decide)
  have accepted : isDefinition 3 (sourceLines coreText) 3 "f".toList false = true := by cbv
  have line : (sourceLines coreText)[(3 : Int).toNat]? = some "int f(void)\n".toList := by cbv
  have different : Kernel.baseSymbol "f" ≠ Kernel.baseSymbol "f_core" := by
    rw [f, core]
    decide
  obtain ⟨disjoint, named⟩ := @resolve_candidates_disjoint sampleSettings (textRoot coreText).tree
    "/" "f" "f_core" [] [] _ _ coreText_wellNamed inside (f.symm ▸ identifier)
    (core.symm ▸ identifier') different resolved resolved'
  obtain ⟨text, -, here, -, called⟩ := named 3 3 _ "f" false identifier accepted
  cases line.symm.trans here
  exact ⟨_, _, resolved, resolved', rfl, rfl, disjoint, called⟩

end CallTimeline.Source
