import CallTimeline.Proofs.Source.PlainSearch
import Mathlib

/-!
# The search is exhaustive

The scan passes over texts and lines without the symbol and takes texts from a shelf. It finds the
same places as the plain search, in the same order (`scan_eq`), and `resolve` reports exactly them
(`resolve_eq_exhaustive`), whatever has been resolved before (`shelfAfter_faithful`).
-/

namespace CallTimeline.Source

open Text

/-- Every text on the shelf is that of its file. -/
def Shelf.Faithful (shelf : Shelf) (tree : FileTree) : Prop :=
  ∀ entry ∈ shelf.texts, entry.2 = load tree entry.1

theorem Shelf.faithful_empty (tree : FileTree) : ({} : Shelf).Faithful tree := by
  intro entry member
  cases member

theorem Shelf.Faithful.take {shelf : Shelf} {tree : FileTree} (faithful : shelf.Faithful tree)
    (path : String) :
    (shelf.take tree path).1 = load tree path ∧ (shelf.take tree path).2.Faithful tree := by
  unfold Shelf.take
  cases found : shelf.texts.lookup path with
  | none =>
      refine ⟨rfl, fun entry member => ?_⟩
      obtain rfl | member := List.mem_cons.mp (List.mem_of_mem_take member)
      · rfl
      · exact faithful entry member
  | some text =>
      obtain ⟨before, after, texts_eq, _⟩ := List.lookup_eq_some_iff.mp found
      have text_eq : text = load tree path := faithful (path, text) (by simp [texts_eq])
      refine ⟨text_eq, fun entry member => ?_⟩
      obtain rfl | member := List.mem_cons.mp member
      · exact text_eq
      · exact faithful entry (List.mem_filter.mp member).1

def First.place (hit : First) : String × Nat :=
  (hit.file, hit.line)

theorem scan_eq (settings : Settings) {tree : FileTree} (symbol : List Char) {shelf : Shelf}
    (faithful : shelf.Faithful tree) (first : Option First) (candidates : List (String × Nat))
    (files : List SourceFile) :
    (scan settings tree symbol shelf first candidates files).2 =
      (do
        let hits ← (readable tree files).flatMapM (settings.everyPlace symbol)
        return (first.or hits.head?, candidates.reverse ++ hits.map First.place)) := by
  induction files generalizing shelf first candidates with
  | nil => simp [scan, readable, pure, Except.pure, bind, Except.bind]
  | cons file files ih =>
      obtain ⟨taken, faithful⟩ := faithful.take file.path
      -- What is taken from the shelf is what the plain search loads.
      rw [scan, readable_cons, ← taken]
      generalize shelf.take tree file.path = result at faithful
      obtain ⟨_ | text, shelf⟩ := result
      · exact ih faithful first candidates
      · simp only [List.flatMapM_cons, Settings.everyPlace, definitionsIn_eq]
        cases settings.everyDefinition symbol (sourceLines text) with
        | error fault => rfl
        | ok numbers =>
            refine (ih faithful _ _).trans ?_
            cases List.flatMapM (settings.everyPlace symbol) (readable tree files) with
            | error fault => rfl
            | ok hits =>
                cases numbers <;>
                  simp [First.place, Function.comp_def, bind, Except.bind, pure, Except.pure]

theorem scan_faithful (settings : Settings) {tree : FileTree} (symbol : List Char) {shelf : Shelf}
    (faithful : shelf.Faithful tree) (first : Option First) (candidates : List (String × Nat))
    (files : List SourceFile) :
    (scan settings tree symbol shelf first candidates files).1.Faithful tree := by
  induction files generalizing shelf first candidates with
  | nil => exact faithful
  | cons file files ih =>
      have faithful := (faithful.take file.path).2
      rw [scan]
      generalize shelf.take tree file.path = result at faithful
      obtain ⟨_ | text, shelf⟩ := result
      · exact ih faithful first candidates
      · cases found : definitionsIn settings symbol text with
        | error fault => simpa [found] using faithful
        | ok numbers => simpa [found] using ih faithful _ _

def Outcome.ofHits (settings : Settings) : List First → Except Fault Outcome
  | [] => .ok .missing
  | first :: rest => do
    let body ← settings.body (sourceLines first.text) first.line
    return .found
      { file := first.file, line := first.line, body
        candidates := (first :: rest).map First.place }

/-- A search that has time comes to what the plain search comes to, whatever is on the shelf. -/
theorem search_eq (settings : Settings) (root : Root) {shelf : Shelf}
    (faithful : shelf.Faithful root.tree) (function : String) :
    (search settings root shelf function).2 =
      (do
        let expired ← settings.isExpired
        if expired && !(root.files settings).isEmpty then
          .ok .timedOut
        else do
          let hits ← root.everyDefinition settings (Kernel.baseSymbol function).toList
          Outcome.ofHits settings hits) := by
  unfold search
  cases settings.isExpired with
  | error fault => rfl
  | ok expired =>
      rw [ok_bind]
      dsimp only
      split
      case isTrue => rfl
      case isFalse =>
        rw [scan_eq settings _ faithful none [] (root.files settings), Root.everyDefinition]
        cases List.flatMapM (settings.everyPlace (Kernel.baseSymbol function).toList)
            (readable root.tree (root.files settings)) with
        | error fault => rfl
        | ok hits => cases hits <;> rfl

theorem search_of_alive {settings : Settings} {root : Root} {shelf : Shelf}
    (alive : settings.isExpired = .ok false) (faithful : shelf.Faithful root.tree)
    (function : String) :
    (search settings root shelf function).2 =
      (do
        let hits ← root.everyDefinition settings (Kernel.baseSymbol function).toList
        Outcome.ofHits settings hits) := by
  rw [search_eq settings root faithful, alive]
  rfl

theorem resolve_of_hits {settings : Settings} {root : Root} {shelf : Shelf} {function : String}
    {first : First} {others : List First} (alive : settings.isExpired = .ok false)
    (faithful : shelf.Faithful root.tree)
    (all : root.everyDefinition settings (Kernel.baseSymbol function).toList =
      .ok (first :: others)) :
    (resolve settings root shelf function).2 =
      (settings.body (sourceLines first.text) first.line).map fun body =>
        Location.ofOutcome function (.found
          { file := first.file, line := first.line, body
            candidates := (first :: others).map First.place }) := by
  rw [resolve]
  simp only [search_of_alive alive faithful, all, ok_bind, Outcome.ofHits]
  cases settings.body (sourceLines first.text) first.line <;> rfl

theorem hits_of_search {settings : Settings} {root : Root} {shelf : Shelf} {function : String}
    {outcome : Outcome} (faithful : shelf.Faithful root.tree) (inTime : outcome ≠ .timedOut)
    (found : (search settings root shelf function).2 = .ok outcome) :
    ∃ hits, root.everyDefinition settings (Kernel.baseSymbol function).toList = .ok hits ∧
      Outcome.ofHits settings hits = .ok outcome := by
  rw [search_eq settings root faithful] at found
  obtain ⟨expired, -, found⟩ := of_bind_ok found
  split at found
  case isTrue => exact absurd (Except.ok.inj found).symm inTime
  case isFalse => exact of_bind_ok found

theorem candidates_of_search {settings : Settings} {root : Root} {shelf : Shelf}
    {function : String} {definition : Found} (faithful : shelf.Faithful root.tree)
    (found : (search settings root shelf function).2 = .ok (.found definition)) :
    ∃ hits, root.everyDefinition settings (Kernel.baseSymbol function).toList = .ok hits ∧
      definition.candidates = hits.map First.place := by
  obtain ⟨hits, all, found⟩ := hits_of_search faithful Outcome.noConfusion found
  refine ⟨hits, all, ?_⟩
  cases hits with
  | nil => cases found
  | cons first rest =>
      obtain ⟨body, -, found⟩ := of_bind_ok found
      cases found
      rfl

theorem hit_of_resolve {settings : Settings} {root : Root} {shelf : Shelf} {function : String}
    {location : Location} {file : Json} {line : Int} (faithful : shelf.Faithful root.tree)
    (resolved : (resolve settings root shelf function).2 = .ok location)
    (listed : (file, line) ∈ location.candidates) :
    ∃ hits, root.everyDefinition settings (Kernel.baseSymbol function).toList = .ok hits ∧
      ∃ hit ∈ hits, file = .str hit.file ∧ line = hit.line := by
  obtain ⟨outcome, outcome_eq, rfl⟩ := of_map_ok resolved
  cases outcome with
  | missing => cases listed
  | timedOut => cases listed
  | found definition =>
      obtain ⟨hits, all, candidates_eq⟩ := candidates_of_search faithful outcome_eq
      refine ⟨hits, all, ?_⟩
      simp only [Location.ofOutcome, candidates_eq, List.map_map, List.mem_map] at listed
      obtain ⟨hit, member, place_eq⟩ := listed
      cases place_eq
      exact ⟨hit, member, rfl, rfl⟩

theorem first_of_resolve {settings : Settings} {root : Root} {shelf : Shelf} {function : String}
    {location : Location} (faithful : shelf.Faithful root.tree)
    (resolved : (resolve settings root shelf function).2 = .ok location)
    (status : location.status = .resolved) :
    ∃ first rest, root.everyDefinition settings (Kernel.baseSymbol function).toList =
        .ok (first :: rest) ∧
      ∃ body, settings.body (sourceLines first.text) first.line = .ok body ∧
        location = Location.ofOutcome function (.found
          { file := first.file, line := first.line, body
            candidates := (first :: rest).map First.place }) := by
  obtain ⟨outcome, outcome_eq, rfl⟩ := of_map_ok resolved
  have inTime : outcome ≠ .timedOut := by
    rintro rfl
    cases status
  obtain ⟨hits, all, found⟩ := hits_of_search faithful inTime outcome_eq
  cases hits with
  | nil =>
      cases found
      cases status
  | cons first rest =>
      obtain ⟨body, body_eq, found⟩ := of_bind_ok found
      cases found
      exact ⟨first, rest, all, body, body_eq, rfl⟩

theorem resolve_faithful (settings : Settings) (root : Root) {shelf : Shelf} (function : String)
    (faithful : shelf.Faithful root.tree) :
    (resolve settings root shelf function).1.Faithful root.tree := by
  unfold resolve search
  cases settings.isExpired with
  | error fault => exact faithful
  | ok expired =>
      simp only
      split
      · exact faithful
      · exact scan_faithful settings _ faithful none [] (root.files settings)

def shelfAfter (settings : Settings) (root : Root) (functions : List String) : Shelf :=
  functions.foldl (fun shelf function => (resolve settings root shelf function).1) {}

theorem shelfAfter_faithful (settings : Settings) (root : Root) (functions : List String) :
    (shelfAfter settings root functions).Faithful root.tree := by
  have kept (shelf : Shelf) (faithful : shelf.Faithful root.tree) :
      (functions.foldl (fun shelf function => (resolve settings root shelf function).1)
        shelf).Faithful root.tree := by
    induction functions generalizing shelf with
    | nil => exact faithful
    | cons function functions ih =>
        exact ih _ (resolve_faithful settings root function faithful)
  exact kept {} (Shelf.faithful_empty root.tree)

/-- The resolver reports the places that the plain search finds: the function is resolved if there
are any, to the first of them, and unresolved if there are none. -/
theorem resolve_eq_exhaustive (settings : Settings) (root : Root) (function : String)
    (alive : settings.isExpired = .ok false) :
    (resolve settings root {} function).2 =
      (do
        match ← root.everyDefinition settings (Kernel.baseSymbol function).toList with
        | [] => return Location.placeholder (.str function) .unresolved
        | first :: rest =>
          let body ← settings.body (sourceLines first.text) first.line
          return {
            function := .str function
            file := .str first.file
            line := first.line
            text := .str body.text
            lineCount := body.lineCount
            candidates := (first :: rest).map fun hit => (.str hit.file, (hit.line : Int))
            status := .resolved
            bodyStatus := body.status }) := by
  unfold resolve
  simp only [search_of_alive alive (Shelf.faithful_empty root.tree)]
  cases root.everyDefinition settings (Kernel.baseSymbol function).toList with
  | error fault => rfl
  | ok hits =>
      cases hits with
      | nil => rfl
      | cons first rest =>
          simp only [bind, Except.bind, Outcome.ofHits]
          cases settings.body (sourceLines first.text) first.line with
          | error fault => rfl
          | ok body => simp [Except.map, pure, Except.pure, Location.ofOutcome, First.place]

def textRoot (text : List Char) : Root where
  tree :=
    { root := .dir [("net", .dir [("a.c", .file (text.map Char.toUInt8))])]
      workingDirectory := [] }
  path := "/"

def sampleSettings : Settings where
  searchDirs := ["net"]
  timeout := none

theorem textRoot_files (text : List Char) :
    (textRoot text).files sampleSettings =
      [{ path := "/net/a.c", relative := "net/a.c", real := ["net", "a.c"] }] := by
  have path : (textRoot text).path = "/" := rfl
  have base : Path.join "/" "net" = "/net" := by decide
  have place : (textRoot text).tree.locate true "/net" = .ok (.found ["net"]) := by cbv
  have node : (textRoot text).tree.root.at? ["net"] =
      some (.dir [("a.c", .file (text.map Char.toUInt8))]) := rfl
  have names : filesBelow (textRoot text).tree ["net"]
      (.dir [("a.c", .file (text.map Char.toUInt8))]) = [["a.c"]] := by cbv
  have below : Path.join "/net" "a.c" = "/net/a.c" := by decide
  have relative : Path.relative "/net/a.c" "/" = "net/a.c" := by decide +kernel
  have source : hasExtension sampleSettings.extensions "a.c" = true := by decide
  have real : (textRoot text).tree.realPlace ["net", "a.c"] = ["net", "a.c"] := by cbv
  have inside : (textRoot text).filesIn sampleSettings "net" =
      [{ path := "/net/a.c", relative := "net/a.c", real := ["net", "a.c"] }] := by
    simp [Root.filesIn, path, base, place, node, names, below, relative, source, real]
  have directories : sampleSettings.searchDirs = ["net"] := rfl
  rw [Root.files, directories, List.flatMap_cons, inside]
  rfl

theorem resolve_textRoot {text : List Char} {function : String} {line : Nat} {others : List Nat}
    {body : Body} (loaded : Shelf.load (textRoot text).tree "/net/a.c" = some text)
    (found : sampleSettings.everyDefinition (Kernel.baseSymbol function).toList (sourceLines text) =
      .ok (line :: others))
    (body_eq : sampleSettings.body (sourceLines text) line = .ok body) :
    (resolve sampleSettings (textRoot text) {} function).2 =
      .ok (Location.ofOutcome function (.found
        { file := "net/a.c", line, body
          candidates := (line :: others).map fun line => ("net/a.c", line) })) := by
  have places : (textRoot text).everyDefinition sampleSettings
      (Kernel.baseSymbol function).toList =
        .ok ((line :: others).map fun line => { file := "net/a.c", line, text }) := by
    rw [Root.everyDefinition, textRoot_files, readable_cons, loaded]
    simp [readable, Settings.everyPlace, found, bind, Except.bind, pure, Except.pure]
  rw [resolve_of_hits rfl (Shelf.faithful_empty _) places, body_eq]
  simp [Except.map, First.place, Function.comp_def]

def sampleText : List Char := "int f(void);\nint f(void)\n\x7b\n\x7d\n".toList

def sampleDirectory : Node :=
  .dir [("a.c", .file (sampleText.map Char.toUInt8))]

def sampleRoot : Root where
  tree := { root := .dir [("net", sampleDirectory)], workingDirectory := [] }
  path := "/"

theorem sampleRoot_files :
    sampleRoot.files sampleSettings =
      [{ path := "/net/a.c", relative := "net/a.c", real := ["net", "a.c"] }] :=
  textRoot_files sampleText

theorem sampleRoot_readable :
    readable sampleRoot.tree (sampleRoot.files sampleSettings) = [("net/a.c", sampleText)] := by
  have loaded : Shelf.load sampleRoot.tree "/net/a.c" = some sampleText := by cbv
  rw [sampleRoot_files, readable_cons, loaded]
  rfl

theorem sampleRoot_everyDefinition :
    sampleRoot.everyDefinition sampleSettings ['f'] =
      .ok [{ file := "net/a.c", line := 2, text := sampleText }] := by
  rw [Root.everyDefinition, sampleRoot_readable]
  cbv

theorem resolve_sampleText :
    (resolve sampleSettings (textRoot sampleText) {} "f").2 =
      .ok (Location.ofOutcome "f" (.found
        { file := "net/a.c", line := 2
          body := { text := "int f(void)\n\x7b\n\x7d\n", lineCount := 3, status := .complete }
          candidates := [("net/a.c", 2)] })) := by
  have loaded : Shelf.load (textRoot sampleText).tree "/net/a.c" = some sampleText := by cbv
  have symbol : (Kernel.baseSymbol "f").toList = ['f'] := by decide
  have found : sampleSettings.everyDefinition (Kernel.baseSymbol "f").toList
      (sourceLines sampleText) = .ok [2] := by
    rw [symbol]
    cbv
  exact resolve_textRoot loaded found (by cbv)

theorem resolve_eq_exhaustive_sample :
    sampleSettings.isExpired = .ok false ∧
      (resolve sampleSettings sampleRoot {} "f").2 =
        .ok {
          function := .str "f"
          file := .str "net/a.c"
          line := 2
          text := .str "int f(void)\n\x7b\n\x7d\n"
          lineCount := 3
          candidates := [(.str "net/a.c", 2)]
          status := .resolved
          bodyStatus := .complete } := by
  have alive : sampleSettings.isExpired = .ok false := rfl
  have symbol : (Kernel.baseSymbol "f").toList = ['f'] := by decide
  refine ⟨alive, (resolve_eq_exhaustive sampleSettings sampleRoot "f" alive).trans ?_⟩
  rw [symbol, sampleRoot_everyDefinition]
  cbv

end CallTimeline.Source
