import CallTimeline.Proofs.Source.Complete

namespace CallTimeline.Source

open Body Text

section

variable {inComment : Bool} {limit k : Nat} {lines : List (List Char)} {code : List Char}

theorem opening?_of_getElem? (at_ : (codes inComment lines)[k]? = some code) (opens : '\x7b' ∈ code)
    (soon : k < limit) :
    ∃ opening, opening? inComment limit lines = some opening ∧ opening.lines ≤ k + 1 := by
  induction lines generalizing inComment limit k with
  | nil => simp [codes] at at_
  | cons line lines ih =>
      obtain ⟨limit, rfl⟩ := Nat.exists_eq_succ_of_ne_zero (Nat.ne_zero_of_lt soon)
      rw [opening?_cons]
      rw [codes] at at_
      generalize strip inComment (chomp line) = stripped at at_
      obtain ⟨first, after⟩ := stripped
      by_cases here : '\x7b' ∈ first
      · exact ⟨_, if_pos here, Nat.le_add_left 1 k⟩
      · simp only [if_neg here]
        cases k with
        | zero =>
            obtain rfl : first = code := by simpa using at_
            exact absurd opens here
        | succ k =>
            obtain ⟨opening, found, early⟩ := ih at_ (Nat.lt_of_succ_lt_succ soon)
            refine ⟨{ opening with lines := opening.lines + 1 }, ?_, Nat.succ_le_succ early⟩
            rw [found, Option.map_some]

theorem le_of_opening? {opening : Opening} (found : opening? inComment limit lines = some opening)
    (unopened : ∀ code ∈ (codes inComment lines).take k, '\x7b' ∉ code) :
    k + 1 ≤ opening.lines := by
  obtain ⟨skipped, first, codes_eq, -, opens, lines_eq, -⟩ := opening?_eq_some found
  rw [lines_eq]
  by_contra early
  refine unopened first ?_ opens
  obtain ⟨rest, rfl⟩ := Nat.exists_eq_add_of_le (show skipped.length + 1 ≤ k by omega)
  rw [codes_eq, Nat.add_assoc, List.take_length_add_append, Nat.add_comm 1]
  exact List.mem_append_right _ List.mem_cons_self

end

section

variable {symbol before gap arguments between body : List Char}

theorem HasShape.not_mem_header {code : List Char}
    (shape : HasShape symbol code before gap arguments between body)
    (name : ∀ c ∈ symbol, isAsciiWord c = true) (unopened : '\x7b' ∉ arguments) :
    '\x7b' ∉ header symbol before gap arguments between := by
  simp only [header, List.mem_append, List.mem_cons, not_or]
  refine ⟨fun member => ?_, fun member => ?_, fun member => ?_, by decide, unopened, by decide,
    fun member => (shape.noPrototype _ member).2 rfl⟩
  · have refused := shape.declarator _ member
    revert refused
    decide
  · have refused := name _ member
    revert refused
    decide
  · have refused := shape.blank _ member
    revert refused
    decide

/-- The scan for a body that begins at a line, by itself and with no comment open, ends on the line
of the brace by which the line is told to be a definition, or before it on a line of the argument
list that holds a brace. -/
structure ReachesBrace (symbol : List Char) (lines : List (List Char)) (index : Nat) (context : Int)
    (limit : Nat) (before gap arguments between body : List Char) : Prop where
  shape : HasShape symbol (codeFrom lines index context) before gap arguments between body
  opens : ∃ opening, opening? false limit (lines.drop index) = some opening ∧
    opening.lines ≤ (header symbol before gap arguments between).count '\n' + 1 ∧
    ('\x7b' ∉ arguments →
      opening.lines = (header symbol before gap arguments between).count '\n' + 1)

theorem HasShape.reachesBrace {lines : List (List Char)} {index limit : Nat} {context : Int}
    (shape : HasShape symbol (codeFrom lines index context) before gap arguments between body)
    (outside : commentBefore lines index = false) (within : (context + 1).toNat ≤ limit)
    (oneLine : ∀ line ∈ lines, '\n' ∉ chomp line)
    (name : ∀ c ∈ symbol, isAsciiWord c = true) :
    ReachesBrace symbol lines index context limit before gap arguments between body := by
  refine ⟨shape, ?_⟩
  have codes_eq : codes false (lines.drop index) = (codes false lines).drop index := by
    rw [codes_drop, ← commentBefore, outside]
  obtain ⟨more, whole⟩ := intercalate_prefix_ended
    (((codes false lines).drop index).take (context + 1).toNat)
  rw [← codeFrom, shape.header_eq, List.append_assoc, List.cons_append] at whole
  have feeds : ∀ code ∈ ((codes false lines).drop index).take (context + 1).toNat, '\n' ∉ code :=
    fun code member =>
      not_mem_of_mem_codes oneLine (List.mem_of_mem_drop (List.mem_of_mem_take member))
  have unopened := shape.not_mem_header name
  generalize header symbol before gap arguments between = head at *
  obtain ⟨inside, -⟩ := balance_ended_take_succ feeds whole.symm (List.cons_ne_nil _ _)
  obtain ⟨part, remainder, head_eq, line_eq, behind⟩ := exists_remainder feeds whole.symm inside
  generalize k_eq : head.count '\n' = k at *
  -- The brace is the first character that is left of its line.
  have opens : '\x7b' ∈ (((codes false lines).drop index).take (context + 1).toNat)[k] := by
    cases remainder with
    | nil => cases (List.cons.inj behind).1
    | cons c remainder =>
        rw [line_eq, (List.cons.inj behind).1]
        exact List.mem_append_right _ List.mem_cons_self
  have soon : k < limit := by
    rw [List.length_take] at inside
    omega
  have at_ : (codes false (lines.drop index))[k]? =
      some (((codes false lines).drop index).take (context + 1).toNat)[k] := by
    rw [codes_eq, List.getElem_take, List.getElem?_eq_getElem]
  obtain ⟨opening, found, early⟩ := opening?_of_getElem? at_ opens soon
  refine ⟨opening, found, early, fun none => Nat.le_antisymm early (le_of_opening? found ?_)⟩
  intro code member opens
  have among : code ∈ (((codes false lines).drop index).take (context + 1).toNat).take k := by
    rwa [List.take_take, Nat.min_eq_left (by rw [List.length_take] at inside; omega), ← codes_eq]
  refine unopened none ?_
  rw [head_eq]
  exact List.mem_append_left _ ((mem_ended (by decide)).mpr ⟨code, among, opens⟩)

end

theorem extract_of_opening? {limits : Limits} {lines : List (List Char)} {index : Nat}
    {opening : Opening} (inside : index < lines.length)
    (found : opening? false limits.lookahead.toNat (lines.drop index) = some opening) :
    (extract limits lines (index + 1 : Nat)).status = .complete ∨
      (extract limits lines (index + 1 : Nat)).status = .overrun := by
  have index_eq : (((index + 1 : Nat) : Int) - 1).toNat = index := by omega
  simp only [extract, index_eq, found]
  rw [if_neg (by omega)]
  split
  · exact Or.inl rfl
  · simp only [ofLines]
    split
    · exact Or.inl rfl
    · exact Or.inr rfl

/-- If bodies are looked for at least as far as definitions, the body of a resolved function is
complete or overruns its limit: the scan from the line of the definition reaches the brace by which
this line was told to be one. -/
theorem resolve_body_opens {settings : Settings} {root : Root} {earlier : List String}
    {function : String} {context lookahead : Int} {location : Location}
    (identifier : IsIdentifier function) (window : settings.contextLines = some context)
    (ahead : settings.lookahead = some lookahead) (covers : context < lookahead)
    (resolved : (resolve settings root (shelfAfter settings root earlier) function).2 =
      .ok location)
    (status : location.status = .resolved) :
    (location.bodyStatus = .complete ∨ location.bodyStatus = .overrun) ∧
      ∃ source ∈ root.files settings, ∃ text, Shelf.load root.tree source.path = some text ∧
        location.file = .str source.relative ∧ ∃ index : Nat, location.line = index + 1 ∧
          commentBefore (sourceLines text) index = false ∧
          ∃ before gap arguments between body,
            ReachesBrace function.toList (sourceLines text) index context lookahead.toNat
              before gap arguments between body := by
  have faithful := shelfAfter_faithful settings root earlier
  obtain ⟨first, others, all, body, body_eq, rfl⟩ := first_of_resolve faithful resolved status
  obtain ⟨source, among, loaded, file_eq, index, line_eq, inside, accepted⟩ :=
    line_of_everyDefinition all List.mem_cons_self
  rw [Settings.isDefinition, window, identifier.baseSymbol] at accepted
  obtain ⟨outside, before, gap, arguments, between, code, shape⟩ :=
    hasShape_of_isDefinition identifier.chars (Except.ok.inj accepted)
  have oneLine : ∀ line ∈ sourceLines first.text, '\n' ∉ chomp line :=
    fun line member => not_mem_chomp_of_mem_cutLines (by decide) member
  have reaches := shape.reachesBrace outside (show (context + 1).toNat ≤ lookahead.toNat by omega)
    oneLine identifier.chars
  obtain ⟨opening, found, -⟩ := reaches.opens
  rw [line_eq] at body_eq
  obtain ⟨limits, limits_ahead, rfl⟩ := Settings.body_eq_extract (by omega) body_eq
  obtain rfl : limits.lookahead = lookahead := Option.some.inj (limits_ahead.symm.trans ahead)
  refine ⟨extract_of_opening? inside found, source, among, first.text, loaded, ?_, index, ?_,
    outside, before, gap, arguments, between, code, reaches⟩
  · rw [← file_eq]
    rfl
  · simp [Location.ofOutcome, line_eq]

def spreadText : List Char :=
  "int f(int a, /* \x7b\n */ int b) // \x7b\n\x7b\n\tg(\"\x7d\");\n\x7d\n".toList

theorem resolve_body_opens_sample :
    IsIdentifier "f" ∧ sampleSettings.contextLines = some 3 ∧ sampleSettings.lookahead = some 5 ∧
      (3 : Int) < 5 ∧ ∃ location,
        (resolve sampleSettings (textRoot spreadText)
          (shelfAfter sampleSettings (textRoot spreadText) []) "f").2 = .ok location ∧
        location.status = .resolved ∧
        (location.bodyStatus = .complete ∨ location.bodyStatus = .overrun) ∧
        ∃ source ∈ (textRoot spreadText).files sampleSettings, ∃ text,
          Shelf.load (textRoot spreadText).tree source.path = some text ∧
          location.file = .str source.relative ∧ ∃ index : Nat, location.line = index + 1 ∧
            commentBefore (sourceLines text) index = false ∧
            ∃ before gap arguments between body,
              ReachesBrace "f".toList (sourceLines text) index 3 (5 : Int).toNat
                before gap arguments between body := by
  have identifier : IsIdentifier "f" :=
    ⟨List.forall_mem_singleton.mpr (by decide), 'f', rfl, by decide⟩
  have loaded : Shelf.load (textRoot spreadText).tree "/net/a.c" = some spreadText := by cbv
  have symbol : (Kernel.baseSymbol "f").toList = ['f'] := by decide
  have found : sampleSettings.everyDefinition (Kernel.baseSymbol "f").toList
      (sourceLines spreadText) = .ok [1] := by
    rw [symbol]
    cbv
  have body_eq : sampleSettings.body (sourceLines spreadText) (1 : Nat) =
      .ok { text := String.ofList spreadText, lineCount := 5, status := .complete } := by
    cbv
  have resolved := resolve_textRoot loaded found body_eq
  exact ⟨identifier, rfl, rfl, by decide, _, resolved, rfl,
    @resolve_body_opens _ _ [] _ _ _ _ identifier rfl rfl (by decide) resolved rfl⟩

end CallTimeline.Source
