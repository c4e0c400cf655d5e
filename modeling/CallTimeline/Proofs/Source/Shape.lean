import CallTimeline.Proofs.Kernel.Symbol
import CallTimeline.Proofs.Source.Window

namespace CallTimeline.Source

open Text

structure Closes (depth : Nat) (text : List Char) : Prop where
  total : text.count ')' = text.count '(' + depth
  within : ∀ start, start <+: text → start.count ')' ≤ start.count '(' + depth

def declaratorWords (before : List Char) : List String :=
  (words (before.map fun c => if c == '*' then ' ' else c)).map String.ofList

/-- The code is type words, the symbol, an argument list in parentheses, and a brace before any
semicolon. -/
structure HasShape (symbol code before gap arguments between body : List Char) : Prop where
  code_eq : code = before ++ (symbol ++ (gap ++ '(' :: (arguments ++ ')' ::
    (between ++ '\x7b' :: body))))
  declarator : ∀ c ∈ before, isWord c = true ∨ isBlank c = true ∨ c = '*'
  noStatement : ∀ word ∈ declaratorWords before, word ∉ statementWords
  alone : ∀ c ∈ before.getLast?, isWord c = false ∧ c ≠ '$'
  blank : ∀ c ∈ gap, isBlank c = true
  balanced : Closes 0 arguments
  noPrototype : ∀ c ∈ between, c ≠ ';' ∧ c ≠ '\x7b'

theorem Closes.nil : Closes 0 [] := by
  refine ⟨rfl, fun start before => ?_⟩
  rw [List.prefix_nil.mp before]
  exact Nat.le_refl _

theorem closes_cons {c : Char} {inner depth : Nat} {text : List Char}
    (step : inner + (if c = ')' then 1 else 0) = depth + (if c = '(' then 1 else 0)) :
    Closes depth (c :: text) ↔ Closes inner text := by
  have count (text : List Char) :
      (c :: text).count ')' = text.count ')' + (if c = ')' then 1 else 0) ∧
        (c :: text).count '(' = text.count '(' + (if c = '(' then 1 else 0) := by
    simp [List.count_cons]
  have counted := count text
  constructor
  · intro closes
    refine ⟨?_, fun start initial => ?_⟩
    · have total := closes.total
      omega
    · have within := closes.within (c :: start) (List.cons_prefix_cons.mpr ⟨rfl, initial⟩)
      have counted := count start
      omega
  · intro closes
    refine ⟨?_, fun start initial => ?_⟩
    · have total := closes.total
      omega
    · obtain rfl | ⟨inside, rfl, shorter⟩ := List.prefix_cons_iff.mp initial
      · simp
      · have within := closes.within inside shorter
        have counted := count inside
        omega

theorem afterArguments?_eq_some {depth : Nat} {text rest : List Char}
    (found : afterArguments? (depth + 1) text = some rest) :
    ∃ arguments, text = arguments ++ ')' :: rest ∧ Closes depth arguments := by
  induction text generalizing depth with
  | nil => cases found
  | cons c text ih =>
      simp only [afterArguments?, beq_iff_eq] at found
      split at found
      case isTrue opens =>
        subst opens
        obtain ⟨arguments, text_eq, closes⟩ := ih (by exact_mod_cast found)
        exact ⟨'(' :: arguments, by rw [text_eq, List.cons_append],
          (closes_cons (by simp)).mpr closes⟩
      case isFalse noOpen =>
        split at found
        case isTrue close =>
          subst close
          -- Only the parenthesis that was open before the text ends the list.
          cases depth with
          | zero =>
              cases found
              exact ⟨[], rfl, .nil⟩
          | succ depth =>
              have less : ((depth + 1 : Nat) : Int) + 1 - 1 = depth + 1 := by omega
              rw [if_neg (by omega), less] at found
              obtain ⟨arguments, text_eq, closes⟩ := ih found
              exact ⟨')' :: arguments, by rw [text_eq, List.cons_append],
                (closes_cons (by simp)).mpr closes⟩
        case isFalse noClose =>
          obtain ⟨arguments, text_eq, closes⟩ := ih found
          exact ⟨c :: arguments, by rw [text_eq, List.cons_append],
            (closes_cons (by simp [noOpen, noClose])).mpr closes⟩

theorem opensBody_eq_true {window : List Char} (opens : opensBody ('(' :: window) = true) :
    ∃ arguments between body,
      window = arguments ++ ')' :: (between ++ '\x7b' :: body) ∧ Closes 0 arguments ∧
        ∀ c ∈ between, c ≠ ';' ∧ c ≠ '\x7b' := by
  unfold opensBody at opens
  split at opens
  case h_1 => cases opens
  case h_2 rest after =>
    obtain ⟨arguments, window_eq, closes⟩ := @afterArguments?_eq_some 0 _ _ after
    obtain ⟨_, between, body, rest_eq, none⟩ :=
      List.find?_eq_some_iff_append.mp (by simpa using opens)
    refine ⟨arguments, between, body, by rw [window_eq, rest_eq], closes, fun c member => ?_⟩
    have refused := none c member
    simp only [Bool.not_eq_true', Bool.or_eq_false_iff, beq_eq_false_iff_ne] at refused
    exact ⟨refused.2, refused.1⟩

theorem isPlain_of_class {p : Char → Bool} {c : Char} (member : p c = true)
    (slash : p '/' = false) (double : p '"' = false) (single : p '\'' = false) :
    isPlain c = true := by
  have ne {d : Char} (refused : p d = false) : c ≠ d := by
    rintro rfl
    rw [refused] at member
    cases member
  simp [isPlain, ne slash, ne double, ne single]

theorem isDeclaratorChar_of_isBlank {c : Char} (blank : isBlank c = true) :
    isDeclaratorChar c = true := by
  simp [isDeclaratorChar, blank]

theorem declarator_of_declares {before : List Char}
    (declares : before.any (!isBlank ·) = true → isDeclarator before = true) :
    (∀ c ∈ before, isDeclaratorChar c = true) ∧
      ∀ word ∈ declaratorWords before, word ∉ statementWords := by
  cases some : before.any (!isBlank ·) with
  | true =>
      have accepted := declares some
      simp only [isDeclarator, Bool.and_eq_true, List.all_eq_true] at accepted
      refine ⟨accepted.1.2, fun word member => ?_⟩
      obtain ⟨letters, among, rfl⟩ := List.mem_map.mp member
      simpa using accepted.2 letters among
  | false =>
      have blank : ∀ c ∈ before, isBlank c = true := by simpa using some
      refine ⟨fun c member => isDeclaratorChar_of_isBlank (blank c member), ?_⟩
      have none : declaratorWords before = [] := by
        rw [declaratorWords, words_eq_nil, List.map_nil]
        intro c member
        obtain ⟨d, among, rfl⟩ := List.mem_map.mp member
        split
        · rfl
        · exact blank d among
      intro word member
      rw [none] at member
      cases member

theorem windowCode_cons (inComment : Bool) (line : List Char) (rest : List (List Char)) :
    ∃ later, windowCode inComment (line :: rest) = (strip inComment (chomp line)).1 ++ later := by
  cases rest with
  | nil => exact ⟨[], by rw [windowCode, List.append_nil]⟩
  | cons next rest => exact ⟨_, rfl⟩

theorem windowCode_of_call {symbol line before call : List Char}
    (name : ∀ c ∈ symbol, isAsciiWord c = true)
    (declarator : ∀ c ∈ before, isDeclaratorChar c = true)
    (here : CallIn symbol none (chomp line) before call) (rest : List (List Char)) :
    ∃ gap window, (∀ c ∈ gap, isBlank c = true) ∧
      windowCode false (call :: rest) = '(' :: window ∧
      windowCode false (line :: rest) = before ++ (symbol ++ (gap ++ '(' :: window)) := by
  obtain ⟨⟨gap, blank, line_eq⟩, ⟨arguments, call_eq⟩, _⟩ := here
  have plain : ∀ c ∈ before ++ (symbol ++ gap), isPlain c = true := by
    intro c member
    simp only [List.mem_append] at member
    rcases member with member | member | member
    · exact isPlain_of_class (declarator c member) (by decide) (by decide) (by decide)
    · exact isPlain_of_class (name c member) (by decide) (by decide) (by decide)
    · exact isPlain_of_class (blank c member) (by decide) (by decide) (by decide)
  have parts : chomp line = (before ++ (symbol ++ gap)) ++ call := by
    rw [line_eq, List.append_assoc, List.append_assoc]
  have ended : chomp call = call := by
    apply chomp_of_chomp_eq_append _ parts
    rw [call_eq]
    exact List.cons_ne_nil _ _
  obtain ⟨later, window_eq⟩ := windowCode_cons false call rest
  rw [ended, call_eq, strip_cons (by decide), List.cons_append, ← call_eq] at window_eq
  refine ⟨gap, (strip false arguments).1 ++ later, blank, window_eq, ?_⟩
  rw [windowCode_append plain ended parts, window_eq, List.append_assoc, List.append_assoc]

theorem isDefinition_eq_true {context index : Int} {symbol : List Char} {lines : List (List Char)}
    {inComment : Bool} (accepted : isDefinition context lines index symbol inComment = true) :
    ∃ line rest call, 0 ≤ index ∧ lines.drop index.toNat = line :: rest ∧
      declarator? symbol line inComment = some call ∧
      opensBody (windowCode false ((call :: rest).take (context + 1).toNat)) = true := by
  unfold isDefinition opensDefinition at accepted
  split at accepted
  case isTrue => cases accepted
  case isFalse within =>
    split at accepted
    case h_1 => cases accepted
    case h_2 line rest from_index =>
      split at accepted
      case h_1 => cases accepted
      case h_2 call found => exact ⟨line, rest, call, Int.not_lt.mp within, from_index, found, accepted⟩

theorem hasShape_of_isDefinition {symbol : List Char} {lines : List (List Char)} {index : Nat}
    {context : Int} (name : ∀ c ∈ symbol, isAsciiWord c = true)
    (accepted : isDefinition context lines index symbol (commentBefore lines index) = true) :
    commentBefore lines index = false ∧
      ∃ before gap arguments between body,
        HasShape symbol (codeFrom lines index context) before gap arguments between body := by
  obtain ⟨line, rest, call, -, from_index, found, opens⟩ := isDefinition_eq_true accepted
  rw [Int.toNat_natCast] at from_index
  obtain ⟨outside, before, here, -, declares⟩ := declarator?_eq_some found
  obtain ⟨declarator, noStatement⟩ := declarator_of_declares declares
  rw [codeFrom_eq, outside, from_index]
  generalize (context + 1).toNat = count at opens
  cases count with
  | zero => cases opens
  | succ count =>
      rw [List.take_succ_cons] at opens ⊢
      obtain ⟨gap, window, blank, call_code, line_code⟩ :=
        windowCode_of_call name declarator here (rest.take count)
      rw [call_code] at opens
      obtain ⟨arguments, between, body, window_eq, balanced, noPrototype⟩ :=
        opensBody_eq_true opens
      refine ⟨rfl, before, gap, arguments, between, body, ?_⟩
      refine ⟨by rw [line_code, window_eq], ?_, noStatement, ?_, blank, balanced, noPrototype⟩
      · intro c member
        simpa [isDeclaratorChar, or_assoc] using declarator c member
      · intro c last
        have alone := here.alone
        rw [Option.or_none, last] at alone
        simpa [extendsName] using alone

structure IsIdentifier (name : String) : Prop where
  chars : ∀ c ∈ name.toList, isAsciiWord c = true
  first : ∃ c ∈ name.toList.head?, c.isDigit = false

theorem IsIdentifier.baseSymbol {name : String} (identifier : IsIdentifier name) :
    (Kernel.baseSymbol name).toList = name.toList := by
  have noDot : '.' ∉ name.toList := fun member => by
    have letter := identifier.chars '.' member
    revert letter
    decide
  rw [Kernel.baseSymbol_of_unmarked (Kernel.unmarked_of_not_mem noDot)]

/-- No false definition is reported: where a candidate stands, no comment is open, and the code of
the file from there on has the shape of a definition. -/
theorem resolve_candidates_haveShape {settings : Settings} {root : Root} {earlier : List String}
    {function : String} {context : Int} {location : Location} {file : Json} {line : Int}
    (identifier : IsIdentifier function) (window : settings.contextLines = some context)
    (resolved : (resolve settings root (shelfAfter settings root earlier) function).2 =
      .ok location)
    (listed : (file, line) ∈ location.candidates) :
    ∃ source ∈ root.files settings, ∃ text, Shelf.load root.tree source.path = some text ∧
      file = .str source.relative ∧ ∃ index : Nat, line = index + 1 ∧
        index < (sourceLines text).length ∧ commentBefore (sourceLines text) index = false ∧
        ∃ before gap arguments between body,
          HasShape function.toList (codeFrom (sourceLines text) index context)
            before gap arguments between body := by
  have faithful := shelfAfter_faithful settings root earlier
  obtain ⟨hits, all, hit, member, rfl, rfl⟩ := hit_of_resolve faithful resolved listed
  obtain ⟨source, among, loaded, file_eq, index, line_eq, inside, accepted⟩ :=
    line_of_everyDefinition all member
  rw [Settings.isDefinition, window, identifier.baseSymbol] at accepted
  obtain ⟨outside, shape⟩ := hasShape_of_isDefinition identifier.chars (Except.ok.inj accepted)
  exact ⟨source, among, hit.text, loaded, by rw [file_eq], index, by rw [line_eq]; rfl, inside,
    outside, shape⟩

theorem resolve_candidates_haveShape_sample :
    IsIdentifier "f" ∧ sampleSettings.contextLines = some 3 ∧ ∃ location,
      (resolve sampleSettings sampleRoot (shelfAfter sampleSettings sampleRoot []) "f").2 =
        .ok location ∧
      (.str "net/a.c", 2) ∈ location.candidates ∧
      ∃ source ∈ sampleRoot.files sampleSettings, ∃ text,
        Shelf.load sampleRoot.tree source.path = some text ∧
        Json.str "net/a.c" = .str source.relative ∧ ∃ index : Nat, (2 : Int) = index + 1 ∧
          index < (sourceLines text).length ∧ commentBefore (sourceLines text) index = false ∧
          ∃ before gap arguments between body,
            HasShape "f".toList (codeFrom (sourceLines text) index 3)
              before gap arguments between body := by
  have identifier : IsIdentifier "f" :=
    ⟨List.forall_mem_singleton.mpr (by decide), 'f', rfl, by decide⟩
  have symbol : (Kernel.baseSymbol "f").toList = ['f'] := by decide
  have body_eq : sampleSettings.body (sourceLines sampleText) 2 =
      .ok { text := "int f(void)\n\x7b\n\x7d\n", lineCount := 3, status := .complete } := by
    cbv
  have resolved := (resolve_of_hits rfl (shelfAfter_faithful sampleSettings sampleRoot [])
    (symbol ▸ sampleRoot_everyDefinition)).trans (congrArg (Except.map _) body_eq)
  have listed := List.mem_singleton_self ((Json.str "net/a.c", (2 : Int)))
  exact ⟨identifier, rfl, _, resolved, listed,
    resolve_candidates_haveShape identifier rfl resolved listed⟩

end CallTimeline.Source
