import CallTimeline.Proofs.Results
import CallTimeline.Proofs.Source.Call
import CallTimeline.Source.Search

namespace CallTimeline.Source

open Text

def commentBefore (lines : List (List Char)) (index : Nat) : Bool :=
  (lines.take index).foldl (fun inComment line => (strip inComment (chomp line)).2) false

def Settings.isDefinition (settings : Settings) (symbol : List Char) (lines : List (List Char))
    (index : Nat) : Except Fault Bool :=
  match settings.contextLines with
  | some context => .ok (Source.isDefinition context lines index symbol (commentBefore lines index))
  | none => settings.opensDefinition symbol (commentBefore lines index) (lines.drop index)

def Settings.definitionAt (settings : Settings) (symbol : List Char) (lines : List (List Char))
    (index : Nat) : Except Fault (List Nat) := do
  let opens ← settings.isDefinition symbol lines index
  return if opens then [index + 1] else []

def Settings.everyDefinition (settings : Settings) (symbol : List Char)
    (lines : List (List Char)) : Except Fault (List Nat) :=
  (List.range lines.length).flatMapM (settings.definitionAt symbol lines)

def Settings.everyPlace (settings : Settings) (symbol : List Char)
    (source : String × List Char) : Except Fault (List First) := do
  let numbers ← settings.everyDefinition symbol (sourceLines source.2)
  return numbers.map fun line => { file := source.1, line, text := source.2 }

def readable (tree : FileTree) (files : List SourceFile) : List (String × List Char) :=
  files.filterMap fun file => (Shelf.load tree file.path).map fun text => (file.relative, text)

/-- The definitions in all source files. -/
def Root.everyDefinition (root : Root) (settings : Settings) (symbol : List Char) :
    Except Fault (List First) :=
  (readable root.tree (root.files settings)).flatMapM (settings.everyPlace symbol)

theorem Settings.everyDefinition_eq_filter {settings : Settings} {context : Int}
    (window : settings.contextLines = some context) (symbol : List Char)
    (lines : List (List Char)) :
    settings.everyDefinition symbol lines =
      .ok (((List.range lines.length).filter fun index : Nat =>
        Source.isDefinition context lines index symbol (commentBefore lines index)).map (· + 1)) := by
  rw [everyDefinition]
  induction List.range lines.length with
  | nil => rfl
  | cons index indices ih =>
      have tested : settings.isDefinition symbol lines index =
          .ok (Source.isDefinition context lines index symbol (commentBefore lines index)) := by
        rw [isDefinition, window]
      rw [List.flatMapM_cons, ih, definitionAt, tested, List.filter_cons]
      generalize Source.isDefinition context lines index symbol (commentBefore lines index) = opens
      cases opens <;> rfl

theorem readable_cons (tree : FileTree) (file : SourceFile) (files : List SourceFile) :
    readable tree (file :: files) =
      match Shelf.load tree file.path with
      | none => readable tree files
      | some text => (file.relative, text) :: readable tree files := by
  unfold readable
  rw [List.filterMap_cons]
  cases Shelf.load tree file.path <;> rfl

theorem line_of_everyDefinition {settings : Settings} {root : Root} {symbol : List Char}
    {hits : List First} {hit : First} (all : root.everyDefinition settings symbol = .ok hits)
    (member : hit ∈ hits) :
    ∃ source ∈ root.files settings, Shelf.load root.tree source.path = some hit.text ∧
      hit.file = source.relative ∧ ∃ index, hit.line = index + 1 ∧
        index < (sourceLines hit.text).length ∧
        settings.isDefinition symbol (sourceLines hit.text) index = .ok true := by
  obtain ⟨⟨file, text⟩, among, places, found, member⟩ := mem_of_flatMapM_ok all member
  obtain ⟨source, listed, loaded⟩ := List.mem_filterMap.mp among
  obtain ⟨_, loaded, pair_eq⟩ := Option.map_eq_some_iff.mp loaded
  cases pair_eq
  obtain ⟨numbers, numbers_eq, places_eq⟩ := of_bind_ok found
  cases places_eq
  obtain ⟨number, numbered, rfl⟩ := List.mem_map.mp member
  obtain ⟨index, inside, here, found, numbered⟩ := mem_of_flatMapM_ok numbers_eq numbered
  obtain ⟨opens, opens_eq, here_eq⟩ := of_bind_ok found
  cases here_eq
  refine ⟨source, listed, loaded, rfl, index, ?_⟩
  cases opens with
  | false => cases numbered
  | true => exact ⟨List.mem_singleton.mp numbered, List.mem_range.mp inside, opens_eq⟩

theorem contextLines_of_isDefinition {settings : Settings} {symbol : List Char}
    {lines : List (List Char)} {index : Nat}
    (accepted : settings.isDefinition symbol lines index = .ok true) :
    ∃ context, settings.contextLines = some context ∧
      isDefinition context lines index symbol (commentBefore lines index) = true := by
  unfold Settings.isDefinition Settings.opensDefinition at accepted
  cases window : settings.contextLines with
  | none =>
      simp only [window] at accepted
      split at accepted <;> cases accepted
  | some context =>
      simp only [window, Except.ok.injEq] at accepted
      exact ⟨context, rfl, accepted⟩

theorem commentBefore_succ {seen rest : List (List Char)} {line : List Char} :
    commentBefore (seen ++ line :: rest) (seen.length + 1) =
      (strip (commentBefore (seen ++ line :: rest) seen.length) (chomp line)).2 := by
  have taken : (seen ++ line :: rest).take (seen.length + 1) = seen ++ [line] := by
    rw [List.take_append]
    simp
  rw [commentBefore, commentBefore, taken, List.foldl_concat, List.take_left]

theorem Settings.isDefinition_eq (settings : Settings) (symbol : List Char)
    (lines : List (List Char)) (index : Nat) :
    settings.isDefinition symbol lines index =
      settings.opensDefinition symbol (commentBefore lines index) (lines.drop index) := by
  unfold Settings.isDefinition
  cases window : settings.contextLines with
  | none => rfl
  | some context => simp [Settings.opensDefinition, window, Source.isDefinition]

theorem Settings.opensDefinition_eq_false {settings : Settings} {symbol line : List Char}
    {inComment : Bool} {rest : List (List Char)}
    (refused : declarator? symbol line inComment = none) :
    settings.opensDefinition symbol inComment (line :: rest) = .ok false := by
  unfold Settings.opensDefinition
  cases settings.contextLines with
  | none => simp [refused]
  | some context => simp [Source.opensDefinition, refused]

theorem definitionLines_cons (settings : Settings) (symbol line : List Char) (inComment : Bool)
    (number : Nat) (done : List Nat) (rest : List (List Char)) :
    definitionLines settings symbol inComment number done (line :: rest) =
      (do
        let opens ← settings.opensDefinition symbol inComment (line :: rest)
        definitionLines settings symbol (strip inComment (chomp line)).2 (number + 1)
          (if opens then number :: done else done) rest) := by
  rw [definitionLines]
  cases found : declarator? symbol line inComment with
  | none =>
      rw [Settings.opensDefinition_eq_false found]
      split <;> rfl
  | some call => rw [if_pos (hasWord_of_declarator? found)]

theorem definitionLines_eq (settings : Settings) (symbol : List Char) (done : List Nat)
    (seen rest : List (List Char)) :
    definitionLines settings symbol (commentBefore (seen ++ rest) seen.length) (seen.length + 1)
        done rest =
      (do
        let numbers ← (List.range' seen.length rest.length).flatMapM
          (settings.definitionAt symbol (seen ++ rest))
        return done.reverse ++ numbers) := by
  -- The lines before those of the induction are `seen`; their comment state is carried along.
  induction rest generalizing seen done with
  | nil => simp [definitionLines, pure, Except.pure, bind, Except.bind]
  | cons line rest ih =>
      rw [definitionLines_cons, ← commentBefore_succ, List.length_cons, List.range'_succ,
        List.flatMapM_cons, Settings.definitionAt, Settings.isDefinition_eq, List.drop_left]
      cases settings.opensDefinition symbol (commentBefore (seen ++ line :: rest) seen.length)
          (line :: rest) with
      | error fault => rfl
      | ok opens =>
          have later := ih (if opens then (seen.length + 1) :: done else done) (seen ++ [line])
          simp only [List.append_assoc, List.singleton_append, List.length_append,
            List.length_singleton] at later
          simp only [bind, Except.bind, pure, Except.pure] at later ⊢
          rw [later]
          cases List.flatMapM (settings.definitionAt symbol (seen ++ line :: rest))
              (List.range' (seen.length + 1) rest.length) with
          | error fault => rfl
          | ok numbers => cases opens <;> simp

theorem Settings.everyDefinition_of_not_occurs (settings : Settings) {symbol text : List Char}
    (absent : occurs symbol text = false) :
    settings.everyDefinition symbol (sourceLines text) = .ok [] := by
  apply flatMapM_eq_ok_nil
  intro index inside
  have bound : index < (sourceLines text).length := List.mem_range.mp inside
  have refused : settings.isDefinition symbol (sourceLines text) index = .ok false := by
    rw [isDefinition_eq, List.drop_eq_getElem_cons bound]
    apply opensDefinition_eq_false
    cases found : declarator? symbol (sourceLines text)[index]
        (commentBefore (sourceLines text) index) with
    | none => rfl
    | some call =>
        have present := occurs_of_declarator? (List.getElem_mem bound) found
        rw [absent] at present
        cases present
  rw [definitionAt, refused]
  rfl

theorem definitionsIn_eq (settings : Settings) (symbol text : List Char) :
    definitionsIn settings symbol text = settings.everyDefinition symbol (sourceLines text) := by
  unfold definitionsIn
  split
  case isTrue =>
    have all := definitionLines_eq settings symbol [] [] (sourceLines text)
    simp only [List.nil_append, List.length_nil, List.reverse_nil] at all
    rw [Settings.everyDefinition, List.range_eq_range']
    exact all.trans (bind_pure _)
  case isFalse absent =>
    exact (settings.everyDefinition_of_not_occurs (by simpa using absent)).symm

end CallTimeline.Source
