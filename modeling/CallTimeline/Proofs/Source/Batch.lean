import CallTimeline.Proofs.Json.Names
import CallTimeline.Proofs.Source.Exhaustive
import CallTimeline.Source.Batch

/-!
# A batch is a search for each name

What a search comes to does not depend on the texts that are at hand (`search_congr`), so in a batch
every distinct name gets the location that it would get alone, unless the batch is shared and its
results cannot be waited for (`resolveAll_eq`). With text for names all that can go wrong is the
deadline of the batch.

Functions are resolved in a batch as a resolver of its own would resolve each (`resolveAll_eq_alone`).
-/

namespace CallTimeline.Source

open Json

variable (settings : Settings) (root : Root)

theorem search_congr {shelf shelf' : Shelf} (faithful : shelf.Faithful root.tree)
    (faithful' : shelf'.Faithful root.tree) (function : String) :
    (search settings root shelf function).2 = (search settings root shelf' function).2 := by
  rw [search_eq settings root faithful, search_eq settings root faithful']

theorem searchName_str (shelf : Shelf) (function : String) :
    searchName settings root shelf (.str function) =
      ((resolve settings root shelf function).1,
        match (resolve settings root shelf function).2 with
        | .ok location => .done location
        | .error fault => .failed fault) := by
  rw [searchName]
  obtain ⟨shelf, _ | _⟩ := resolve settings root shelf function <;> rfl

variable {settings root} in
theorem searchName_faithful {shelf : Shelf} (faithful : shelf.Faithful root.tree) (name : Json) :
    (searchName settings root shelf name).1.Faithful root.tree := by
  cases name with
  | str function =>
      rw [searchName_str]
      exact resolve_faithful settings root function faithful
  | _ => exact faithful

theorem searchName_congr {shelf shelf' : Shelf} (faithful : shelf.Faithful root.tree)
    (faithful' : shelf'.Faithful root.tree) (name : Json) :
    (searchName settings root shelf name).2 = (searchName settings root shelf' name).2 := by
  cases name with
  | str function =>
      have same := search_congr settings root faithful faithful' function
      simp only [searchName_str, resolve, same]
  | _ => rfl

def resolveName (name : Json) : Resolution :=
  Resolution.ofEnding name (searchName settings root {} name).2

def locationOf (name : Json) : Location :=
  (resolveName settings root name).location

theorem resolveEach_eq {shelf : Shelf} (faithful : shelf.Faithful root.tree) (names : List Json) :
    resolveEach settings root shelf names = names.map (resolveName settings root) := by
  induction names generalizing shelf with
  | nil => rfl
  | cons name rest ih =>
      have here := searchName_congr settings root faithful (Shelf.faithful_empty root.tree) name
      change Resolution.ofEnding name (searchName settings root shelf name).2 ::
        resolveEach settings root (searchName settings root shelf name).1 rest = _
      rw [ih (searchName_faithful faithful name), here]
      rfl

theorem locationOf_function (name : Json) : (locationOf settings root name).function = name := by
  cases name with
  | str function =>
      rw [locationOf, resolveName, searchName_str, resolve]
      obtain ⟨_, _ | outcome⟩ := search settings root {} function
      · rfl
      · cases outcome <;> rfl
  | _ => rfl

theorem locationOf_str (function : String) :
    locationOf settings root (.str function) =
      (resolve settings root {} function).2.toOption.getD
        (Location.placeholder (.str function) .unresolved) := by
  rw [locationOf, resolveName, searchName_str]
  cases (resolve settings root {} function).2 <;> rfl

theorem isText_ofOutcome (function : String) (outcome : Outcome) :
    (Location.ofOutcome function outcome).text.IsText := by
  cases outcome <;> exact ⟨_, rfl⟩

theorem isText_locationOf (name : Json) : (locationOf settings root name).text.IsText := by
  cases name with
  | str function =>
      rw [locationOf_str, resolve]
      obtain ⟨_, _ | outcome⟩ := search settings root {} function
      · exact ⟨_, rfl⟩
      · exact isText_ofOutcome function outcome
  | _ => exact ⟨_, rfl⟩

def resolveWithin (early : Option Ending) (name : Json) : Resolution :=
  Resolution.ofEnding name (early.getD (searchName settings root {} name).2)

def locationWithin (early : Option Ending) (name : Json) : Location :=
  (resolveWithin settings root early name).location

variable {settings} in
theorem cutShort?_of_not_shared {processors : Nat} {names : List Json}
    (alone : isShared settings processors names = false) :
    settings.cutShort? processors names = .ok none := by
  rw [Settings.cutShort?, alone]
  rfl

theorem resolveAll_eq (processors : Nat) (names : List Json) :
    resolveAll settings root processors names =
      (do
        names.forM checkName
        let early ← settings.cutShort? processors (distinctNames names)
        return (distinctNames names).map (resolveWithin settings root early)) := by
  rw [resolveAll]
  congr 1
  funext _
  dsimp only
  cases shared : isShared settings processors (distinctNames names) with
  | true => rfl
  | false =>
      rw [cutShort?_of_not_shared shared,
        resolveEach_eq settings root (Shelf.faithful_empty root.tree)]
      rfl

theorem cutShort?_ne_done (patience : Option Float) (location : Location) :
    cutShort? patience ≠ some (.done location) := by
  intro cut
  unfold cutShort? at cut
  split at cut
  · cases cut
  · split at cut
    · split at cut <;> cases cut
    · cases cut

variable {settings} in
theorem locationWithin_eq {processors : Nat} {names : List Json} {early : Option Ending}
    (cut : settings.cutShort? processors names = .ok early) (name : Json) :
    locationWithin settings root early name = locationOf settings root name ∨
      ∃ status, locationWithin settings root early name = Location.placeholder name status := by
  match early with
  | none => exact .inl rfl
  | some .late => exact .inr ⟨_, rfl⟩
  | some (.failed _) => exact .inr ⟨_, rfl⟩
  | some (.done location) =>
      unfold Settings.cutShort? at cut
      split at cut
      · obtain ⟨patience, -, cut⟩ := of_map_ok cut
        exact absurd cut (cutShort?_ne_done patience location)
      · cases cut

variable {settings} in
theorem locationWithin_function {processors : Nat} {names : List Json} {early : Option Ending}
    (cut : settings.cutShort? processors names = .ok early) (name : Json) :
    (locationWithin settings root early name).function = name := by
  obtain same | ⟨status, same⟩ := locationWithin_eq root cut name
  · rw [same, locationOf_function]
  · rw [same]
    rfl

variable {settings} in
theorem isText_locationWithin {processors : Nat} {names : List Json} {early : Option Ending}
    (cut : settings.cutShort? processors names = .ok early) (name : Json) :
    (locationWithin settings root early name).text.IsText := by
  obtain same | ⟨status, same⟩ := locationWithin_eq root cut name
  · rw [same]
    exact isText_locationOf settings root name
  · rw [same]
    exact ⟨_, rfl⟩

variable {settings} in
theorem locationsOf_within {processors : Nat} {batch : List Json} {early : Option Ending}
    (cut : settings.cutShort? processors batch = .ok early) (names : List Json) :
    locationsOf (names.map (resolveWithin settings root early)) =
      names.map fun name => (name, locationWithin settings root early name) := by
  rw [locationsOf, List.map_map]
  refine List.map_congr_left fun name _ => ?_
  exact Prod.ext (locationWithin_function root cut name) rfl

theorem forM_checkName_of_text {names : List Json} (text : ∀ name ∈ names, name.IsText) :
    names.forM checkName = .ok () := by
  induction names with
  | nil => rfl
  | cons name rest ih =>
      obtain ⟨_, rfl⟩ := text name List.mem_cons_self
      exact ih fun name member => text name (List.mem_cons_of_mem _ member)

theorem resolveAll_of_text (processors : Nat) {names : List Json}
    (text : ∀ name ∈ names, name.IsText) :
    (resolveAll settings root processors names).map locationsOf =
      (settings.cutShort? processors (distinctNames names)).map fun early =>
        (distinctNames names).map fun name => (name, locationWithin settings root early name) := by
  rw [resolveAll_eq, forM_checkName_of_text text]
  change Except.map locationsOf (settings.cutShort? _ _ >>= _) = _
  cases cut : settings.cutShort? processors (distinctNames names) with
  | error fault => rfl
  | ok early => exact congrArg Except.ok (locationsOf_within root cut _)

variable {settings} in
theorem fault_of_cutShort? {processors : Nat} {names : List Json} {fault : Fault}
    (h : settings.cutShort? processors names = .error fault) :
    fault = .integerAsReal ∧ ∃ seconds, settings.timeout = some (.int seconds) ∧
      Double.isFinite (Double.ofInt (roundsOf settings processors names * seconds)) = false := by
  unfold Settings.cutShort? Settings.patience at h
  split at h
  case isFalse => cases h
  case isTrue =>
    split at h
    case h_1 => cases h
    case h_3 => cases h
    case h_2 seconds timeout =>
      rw [realOfInt] at h
      split at h
      case isTrue => cases h
      case isFalse infinite =>
        cases h
        exact ⟨rfl, seconds, timeout, by simpa using infinite⟩

/-- What a resolver of its own makes of a function: a search that fails leaves a placeholder. -/
def resolveAlone (function : String) : Resolution :=
  match (resolve settings root {} function).2 with
  | .ok location => { location, complaint := none }
  | .error fault =>
    { location := Location.placeholder (.str function) .unresolved, complaint := some fault }

theorem resolveWithin_none_str (function : String) :
    resolveWithin settings root none (.str function) = resolveAlone settings root function := by
  rw [resolveWithin, Option.getD_none, searchName_str, resolveAlone]
  cases (resolve settings root {} function).2 <;> rfl

theorem resolveAlone_function (function : String) :
    (resolveAlone settings root function).location.function = .str function := by
  rw [← resolveWithin_none_str]
  exact locationOf_function settings root (.str function)

variable {settings} in
theorem resolveAll_map_str {processors : Nat} {functions : List String}
    (waits : settings.cutShort? processors (functions.eraseDups.map .str) = .ok none) :
    resolveAll settings root processors (functions.map .str) =
      .ok (functions.eraseDups.map (resolveAlone settings root)) := by
  have text : ∀ name ∈ functions.map Json.str, name.IsText := by
    intro name member
    obtain ⟨function, -, rfl⟩ := List.mem_map.mp member
    exact ⟨function, rfl⟩
  have each : (functions.eraseDups.map Json.str).map (resolveWithin settings root none) =
      functions.eraseDups.map (resolveAlone settings root) := by
    rw [List.map_map]
    exact List.map_congr_left fun function _ => resolveWithin_none_str settings root function
  rw [resolveAll_eq, forM_checkName_of_text text, distinctNames_map_str, waits, ← each]
  rfl

variable {settings} in
/-- A batch that can be waited for gives every distinct function, in the order of first appearance,
what a resolver of its own makes of it, and reports each of them once. -/
theorem resolveAll_eq_alone {processors : Nat} {functions : List String}
    (waits : settings.cutShort? processors (functions.eraseDups.map .str) = .ok none) :
    let distinct := functions.eraseDups
    let location function := (resolveAlone settings root function).location
    ∃ resolutions, resolveAll settings root processors (functions.map .str) = .ok resolutions ∧
      locationsOf resolutions = distinct.map (fun function => (.str function, location function)) ∧
      (∀ function, (location function).function = .str function) ∧
      reports resolutions = distinct.zipIdx.map fun (function, i) =>
        { done := i + 1, total := distinct.length
          resolution := resolveAlone settings root function } := by
  intro distinct location
  refine ⟨_, resolveAll_map_str root waits, ?_, resolveAlone_function settings root, ?_⟩
  · rw [locationsOf, List.map_map]
    refine List.map_congr_left fun function _ => ?_
    exact Prod.ext (resolveAlone_function settings root function) rfl
  · rw [reports, List.zipIdx_map, List.length_map, List.map_map]
    rfl

def sharedSettings (seconds : Float) : Settings :=
  { sampleSettings with timeout := some (.real seconds), workers := some 2 }

theorem resolveAlone_sharedSettings {seconds : Float}
    (alive : (sharedSettings seconds).isExpired = .ok false) :
    (resolveAlone (sharedSettings seconds) sampleRoot "f").location.status = .resolved := by
  have symbol : (Kernel.baseSymbol "f").toList = ['f'] := by decide
  have places : sampleRoot.everyDefinition (sharedSettings seconds) (Kernel.baseSymbol "f").toList =
      .ok [{ file := "net/a.c", line := 2, text := sampleText }] := by
    rw [symbol]
    exact sampleRoot_everyDefinition
  have body_eq : (sharedSettings seconds).body (Text.sourceLines sampleText) 2 =
      .ok { text := "int f(void)\n\x7b\n\x7d\n", lineCount := 3, status := .complete } := by
    cbv
  have resolved := (resolve_of_hits alive (Shelf.faithful_empty sampleRoot.tree) places).trans
    (congrArg (Except.map _) body_eq)
  rw [resolveAlone, resolved]
  rfl

theorem resolveAll_eq_alone_shared :
    (sharedSettings 10.0).cutShort? 1 (["f", "g", "f"].eraseDups.map .str) = .ok none ∧
      ∃ resolutions,
        resolveAll (sharedSettings 10.0) sampleRoot 1 (["f", "g", "f"].map .str) =
          .ok resolutions ∧
        (locationsOf resolutions).map (fun entry => (entry.1, entry.2.status)) =
          [(.str "f", .resolved),
            (.str "g", (resolveAlone (sharedSettings 10.0) sampleRoot "g").location.status)] ∧
        (reports resolutions).map (fun report => (report.done, report.total)) =
          [(1, 2), (2, 2)] := by
  have waits : (sharedSettings 10.0).cutShort? 1 (["f", "g", "f"].eraseDups.map .str) =
      .ok none := by rfl
  have distinct : ["f", "g", "f"].eraseDups = ["f", "g"] := by decide
  obtain ⟨resolutions, done, locations, -, reported⟩ := resolveAll_eq_alone sampleRoot waits
  refine ⟨waits, resolutions, done, ?_, ?_⟩
  · have alive : (sharedSettings 10.0).isExpired = .ok false := by rfl
    rw [locations, distinct, ← resolveAlone_sharedSettings alive]
    rfl
  · rw [reported, distinct]
    rfl

/-- A deadline that never comes is too far away to be waited for: two functions that are resolved
alone are not resolved by two workers. -/
theorem resolveAll_endless :
    (sharedSettings (1.0 / 0.0)).isExpired = .ok false ∧
      (resolveAlone (sharedSettings (1.0 / 0.0)) sampleRoot "f").location.status = .resolved ∧
      resolveAll (sharedSettings (1.0 / 0.0)) sampleRoot 1 (["f", "g"].map .str) =
        .ok (["f", "g"].map fun function =>
          { location := Location.placeholder (.str function) .unresolved
            complaint := some .endlessWait }) := by
  have alive : (sharedSettings (1.0 / 0.0)).isExpired = .ok false := by rfl
  have cut : (sharedSettings (1.0 / 0.0)).cutShort? 1 (["f", "g"].map .str) =
      .ok (some (.failed .endlessWait)) := by rfl
  have distinct : distinctNames (["f", "g"].map .str) = ["f", "g"].map .str := by
    rw [distinctNames_map_str]
    rfl
  refine ⟨alive, resolveAlone_sharedSettings alive, ?_⟩
  rw [resolveAll_eq, distinct, cut]
  rfl

end CallTimeline.Source
