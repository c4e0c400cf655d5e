import CallTimeline.Proofs.Source.Extraction
import CallTimeline.Proofs.Source.Shape

/-!
# Complete bodies

A complete body begins at the definition and ends where the braces of its lines first balance. That
is the line of the brace that matches the opening brace of the function, unless a line ends before it
with all braces closed or code behind the matching brace opens another (`resolve_complete_body`).
-/

namespace CallTimeline.Source

open Body Text

theorem intercalate_prefix_ended (codes : List (List Char)) :
    ['\n'].intercalate codes <+: ended codes := by
  induction codes with
  | nil => exact List.prefix_rfl
  | cons code codes ih =>
      cases codes with
      | nil => exact ⟨['\n'], by simp [ended]⟩
      | cons next codes =>
          obtain ⟨more, whole⟩ := ih
          refine ⟨more, ?_⟩
          rw [ended, List.flatMap_cons, ← ended, ← whole]
          simp

def header (symbol before gap arguments between : List Char) : List Char :=
  before ++ (symbol ++ (gap ++ '(' :: (arguments ++ ')' :: between)))

section

variable {symbol code before gap arguments between body : List Char}

theorem HasShape.header_eq (h : HasShape symbol code before gap arguments between body) :
    code = header symbol before gap arguments between ++ '\x7b' :: body := by
  simp [h.code_eq, header]

theorem HasShape.append (h : HasShape symbol code before gap arguments between body)
    (more : List Char) :
    HasShape symbol (code ++ more) before gap arguments between (body ++ more) :=
  { h with code_eq := by simp [h.code_eq] }

end

theorem hasShape_ended {symbol : List Char} {lines : List (List Char)} {index : Nat}
    {context : Int} (name : ∀ c ∈ symbol, isAsciiWord c = true)
    (accepted : isDefinition context lines index symbol (commentBefore lines index) = true) :
    ∃ before gap arguments between body,
      HasShape symbol (ended ((codes false lines).drop index))
        before gap arguments between body := by
  obtain ⟨-, before, gap, arguments, between, body, shape⟩ := hasShape_of_isDefinition name accepted
  obtain ⟨more, whole⟩ : codeFrom lines index context <+: ended ((codes false lines).drop index) :=
    (intercalate_prefix_ended _).trans (ended_take_prefix_ended _ _)
  rw [← whole]
  exact ⟨before, gap, arguments, between, body ++ more, shape.append more⟩

/-- A complete body ends where the braces of its lines first balance. If the braces before the body
pair up, that is the line of the matching brace just if no line ends in between with all braces
closed, and the code behind the matching brace on its line opens none. -/
theorem resolve_complete_body {settings : Settings} {root : Root} {earlier : List String}
    {function : String} {location : Location} (identifier : IsIdentifier function)
    (resolved : (resolve settings root (shelfAfter settings root earlier) function).2 =
      .ok location)
    (status : location.status = .resolved) (complete : location.bodyStatus = .complete) :
    ∃ source ∈ root.files settings, ∃ text, Shelf.load root.tree source.path = some text ∧
      ∃ index count : Nat, location.file = .str source.relative ∧ location.line = index + 1 ∧
        location.lineCount = count ∧
        location.text =
          .str (String.ofList (((sourceLines text).drop index).take count).flatten) ∧
        BalancesAt ((codes false (sourceLines text)).drop index) count ∧
        ∃ before gap arguments between body,
          HasShape function.toList (ended ((codes false (sourceLines text)).drop index))
            before gap arguments between body ∧
          (Paired (header function.toList before gap arguments between) →
            LastLine (header function.toList before gap arguments between) body count) := by
  have faithful := shelfAfter_faithful settings root earlier
  obtain ⟨first, others, all, body, body_eq, rfl⟩ := first_of_resolve faithful resolved status
  obtain ⟨source, among, loaded, file_eq, index, line_eq, inside, accepted⟩ :=
    line_of_everyDefinition all List.mem_cons_self
  rw [identifier.baseSymbol] at accepted
  obtain ⟨context, -, accepted⟩ := contextLines_of_isDefinition accepted
  have outside := (hasShape_of_isDefinition identifier.chars accepted).1
  obtain ⟨before, gap, arguments, between, code, shape⟩ :=
    hasShape_ended identifier.chars accepted
  obtain ⟨limits, rfl⟩ := Settings.body_eq_ok body_eq
  rw [line_eq] at complete
  obtain ⟨count, balances, extract_eq⟩ := extract_complete complete
  have codes_eq : codes false ((sourceLines first.text).drop index) =
      (codes false (sourceLines first.text)).drop index := by
    rw [codes_drop, ← commentBefore, outside]
  rw [codes_eq] at balances
  have oneLine : ∀ code ∈ (codes false (sourceLines first.text)).drop index, '\n' ∉ code :=
    fun code member => not_mem_of_mem_codes
      (fun line among => not_mem_chomp_of_mem_cutLines (by decide) among)
      (List.mem_of_mem_drop member)
  refine ⟨source, among, first.text, loaded, index, count, ?_, ?_, ?_, ?_, balances, before, gap,
    arguments, between, code, shape, fun paired => ?_⟩
  · rw [← file_eq]
    rfl
  · simp [Location.ofOutcome, line_eq]
  · simp only [Location.ofOutcome, line_eq, extract_eq]
  · simp only [Location.ofOutcome, line_eq, extract_eq]
  · exact balances.lastLine oneLine paired shape.header_eq

theorem resolve_complete_body_sample :
    IsIdentifier "f" ∧ ∃ location,
      (resolve sampleSettings (textRoot sampleText)
        (shelfAfter sampleSettings (textRoot sampleText) []) "f").2 = .ok location ∧
      location.status = .resolved ∧ location.bodyStatus = .complete ∧
      ∃ source ∈ (textRoot sampleText).files sampleSettings, ∃ text,
        Shelf.load (textRoot sampleText).tree source.path = some text ∧
        ∃ index count : Nat, location.file = .str source.relative ∧ location.line = index + 1 ∧
          location.lineCount = count ∧
          location.text =
            .str (String.ofList (((sourceLines text).drop index).take count).flatten) ∧
          BalancesAt ((codes false (sourceLines text)).drop index) count ∧
          ∃ before gap arguments between body,
            HasShape "f".toList (ended ((codes false (sourceLines text)).drop index))
              before gap arguments between body ∧
            (Paired (header "f".toList before gap arguments between) →
              LastLine (header "f".toList before gap arguments between) body count) := by
  have identifier : IsIdentifier "f" :=
    ⟨List.forall_mem_singleton.mpr (by decide), 'f', rfl, by decide⟩
  exact ⟨identifier, _, resolve_sampleText, rfl, rfl,
    @resolve_complete_body _ _ [] _ _ identifier resolve_sampleText rfl rfl⟩

/-- The function has a complete body of `count` lines, but the brace that matches its opening brace
stands on the line `last` of it. -/
def EndsBeside (text : List Char) (function : String) (count last : Nat) : Prop :=
  count ≠ last ∧ IsIdentifier function ∧ ∃ location,
    (resolve sampleSettings (textRoot text) {} function).2 = .ok location ∧
    location.status = .resolved ∧ location.bodyStatus = .complete ∧ location.lineCount = count ∧
    ∃ index : Nat, location.line = index + 1 ∧ ∃ before gap arguments between body inside behind,
      HasShape function.toList (ended ((codes false (sourceLines text)).drop index))
        before gap arguments between body ∧
      Matches body inside behind ∧
      last =
        (header function.toList before gap arguments between ++ '\x7b' :: inside).count '\n' + 1

def bracesText : List Char :=
  "int f(struct \x7b int a; \x7d x)\n\x7b\n\x7d\n".toList ++
    "int g(void) \x7b \x7d int h(void) \x7b\n\x7d\n".toList

theorem Closes.of_not_mem {text : List Char} (unopened : '(' ∉ text) (unclosed : ')' ∉ text) :
    Closes 0 text := by
  refine ⟨?_, fun start initial => ?_⟩
  · rw [List.count_eq_zero.mpr unopened, List.count_eq_zero.mpr unclosed]
  · rw [List.count_eq_zero.mpr fun member => unclosed (initial.subset member)]
    exact Nat.zero_le _

theorem HasShape.of_all {symbol code before gap arguments between body : List Char}
    (code_eq : code = header symbol before gap arguments between ++ '\x7b' :: body)
    (declarator : before.all isDeclaratorChar = true)
    (noStatement : (declaratorWords before).all (!statementWords.contains ·) = true)
    (alone : before.getLast?.all (!extendsName ·) = true) (blank : gap.all isBlank = true)
    (balanced : Closes 0 arguments)
    (noPrototype : between.all (fun c => c != ';' && c != '\x7b') = true) :
    HasShape symbol code before gap arguments between body where
  code_eq := by simp [code_eq, header]
  declarator := by simpa [isDeclaratorChar, or_assoc] using declarator
  noStatement := by simpa using noStatement
  alone := by
    intro c last
    rw [last] at alone
    simpa [extendsName] using alone
  blank := by simpa using blank
  balanced := balanced
  noPrototype := by simpa using noPrototype

theorem bracesText_loaded :
    Shelf.load (textRoot bracesText).tree "/net/a.c" = some bracesText := by
  cbv

theorem bracesText_early : EndsBeside bracesText "f" 1 3 := by
  have identifier : IsIdentifier "f" :=
    ⟨List.forall_mem_singleton.mpr (by decide), 'f', rfl, by decide⟩
  have symbol : (Kernel.baseSymbol "f").toList = ['f'] := by decide
  have found : sampleSettings.everyDefinition (Kernel.baseSymbol "f").toList
      (sourceLines bracesText) = .ok [1] := by
    rw [symbol]
    cbv
  have body_eq : sampleSettings.body (sourceLines bracesText) (1 : Nat) =
      .ok
        { text := "int f(struct \x7b int a; \x7d x)\n", lineCount := 1
          status := .complete } := by
    cbv
  have shape : HasShape "f".toList (ended ((codes false (sourceLines bracesText)).drop 0))
      "int ".toList [] "struct \x7b int a; \x7d x".toList ['\n']
      ("\n".toList ++ '\x7d' ::
        "\nint g(void) \x7b \x7d int h(void) \x7b\n\x7d\n".toList) := by
    refine .of_all ?_ (by decide) (by decide) (by decide) (by decide)
      (.of_not_mem (by decide) (by decide)) (by decide)
    cbv
  exact ⟨by decide, identifier, _, resolve_textRoot bracesText_loaded found body_eq, rfl, rfl, rfl,
    0, rfl, _, _, _, _, _, _, _, shape, ⟨rfl, .of_not_mem (by decide) (by decide)⟩, by decide⟩

theorem bracesText_late : EndsBeside bracesText "g" 2 1 := by
  have identifier : IsIdentifier "g" :=
    ⟨List.forall_mem_singleton.mpr (by decide), 'g', rfl, by decide⟩
  have symbol : (Kernel.baseSymbol "g").toList = ['g'] := by decide
  have found : sampleSettings.everyDefinition (Kernel.baseSymbol "g").toList
      (sourceLines bracesText) = .ok [4] := by
    rw [symbol]
    cbv
  have body_eq : sampleSettings.body (sourceLines bracesText) (4 : Nat) =
      .ok
        { text := "int g(void) \x7b \x7d int h(void) \x7b\n\x7d\n", lineCount := 2
          status := .complete } := by
    cbv
  have shape : HasShape "g".toList (ended ((codes false (sourceLines bracesText)).drop 3))
      "int ".toList [] "void".toList " ".toList
      (" ".toList ++ '\x7d' :: " int h(void) \x7b\n\x7d\n".toList) := by
    refine .of_all ?_ (by decide) (by decide) (by decide) (by decide)
      (.of_not_mem (by decide) (by decide)) (by decide)
    cbv
  exact ⟨by decide, identifier, _, resolve_textRoot bracesText_loaded found body_eq, rfl, rfl, rfl,
    3, rfl, _, _, _, _, _, _, _, shape, ⟨rfl, .of_not_mem (by decide) (by decide)⟩, by decide⟩

theorem complete_body_endsBeside :
    EndsBeside bracesText "f" 1 3 ∧ EndsBeside bracesText "g" 2 1 :=
  ⟨bracesText_early, bracesText_late⟩

end CallTimeline.Source
