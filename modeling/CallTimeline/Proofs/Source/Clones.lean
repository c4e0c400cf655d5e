import CallTimeline.Proofs.Kernel.Symbol
import CallTimeline.Proofs.Source.Batch
import CallTimeline.Proofs.Source.Canonical

namespace CallTimeline.Source

open Kernel

structure Location.Agrees (location location' : Location) : Prop where
  status : location'.status = location.status
  definition : location.status = .resolved →
    location' = { location with function := location'.function }

theorem Location.agrees_ofOutcome (function function' : String) (outcome : Outcome) :
    (ofOutcome function outcome).Agrees (ofOutcome function' outcome) := by
  cases outcome with
  | found definition => exact ⟨rfl, fun _ => rfl⟩
  | missing => exact ⟨rfl, nofun⟩
  | timedOut => exact ⟨rfl, nofun⟩

theorem Location.function_ofOutcome (function : String) (outcome : Outcome) :
    (ofOutcome function outcome).function = .str function := by
  cases outcome <;> rfl

section

variable {settings : Settings} {root : Root} {shelf shelf' : Shelf} {function function' : String}

theorem search_congr_baseSymbol (same : baseSymbol function' = baseSymbol function)
    (faithful : shelf.Faithful root.tree) (faithful' : shelf'.Faithful root.tree) :
    (search settings root shelf' function').2 = (search settings root shelf function).2 := by
  rw [search_eq settings root faithful', search_eq settings root faithful, same]

theorem exists_search (alive : settings.isExpired = .ok false)
    (window : settings.contextLines.isSome = true) (ahead : settings.lookahead.isSome = true)
    (slice : settings.fallbackLines.isSome = true) (limit : settings.maxBodyLines.isSome = true)
    (faithful : shelf.Faithful root.tree) (function : String) :
    ∃ outcome, (search settings root shelf function).2 = .ok outcome := by
  obtain ⟨context, window⟩ := Option.isSome_iff_exists.mp window
  obtain ⟨hits, all, -⟩ := exists_everyDefinition window root (baseSymbol function).toList
  rw [search_of_alive alive faithful, all, ok_bind]
  cases hits with
  | nil => exact ⟨_, rfl⟩
  | cons first rest =>
      obtain ⟨body, body_eq⟩ :=
        Settings.exists_body ahead slice limit (Text.sourceLines first.text) first.line
      rw [Outcome.ofHits, body_eq]
      exact ⟨_, rfl⟩

end

/-- A base symbol is a traced name on one line up to the first mark of a clone. It has no mark, so it
is its own base symbol. Whatever two resolvers with the same settings and the same tree have resolved
before, they come to the same fault for the clone and for the base symbol, or to locations that
differ in nothing but the name; and they come to locations if there is time and every number is
set. -/
theorem resolve_baseSymbol {function : String} (oneLine : '\n' ∉ function.toList) :
    CutAtClone function.toList (baseSymbol function).toList ∧
      Unmarked (baseSymbol function).toList ∧
      baseSymbol (baseSymbol function) = baseSymbol function ∧
      ∀ (settings : Settings) (root : Root) (earlier earlier' : List String),
        let resolved := (resolve settings root (shelfAfter settings root earlier) function).2
        let resolved' :=
          (resolve settings root (shelfAfter settings root earlier') (baseSymbol function)).2
        (∀ fault, resolved = .error fault ↔ resolved' = .error fault) ∧
        (∀ location, resolved = .ok location → location.function = .str function ∧
          ∃ location', resolved' = .ok location' ∧
            location'.function = .str (baseSymbol function) ∧ location.Agrees location') ∧
        (settings.isExpired = .ok false → settings.contextLines.isSome →
          settings.lookahead.isSome → settings.fallbackLines.isSome →
          settings.maxBodyLines.isSome → ∃ location, resolved = .ok location) := by
  have cut := cutAtClone_baseSymbol oneLine
  refine ⟨cut, cut.unmarked_base, baseSymbol_baseSymbol oneLine, ?_⟩
  intro settings root earlier earlier' resolved resolved'
  have faithful := shelfAfter_faithful settings root earlier
  have faithful' := shelfAfter_faithful settings root earlier'
  have same : (search settings root (shelfAfter settings root earlier') (baseSymbol function)).2 =
      (search settings root (shelfAfter settings root earlier) function).2 :=
    search_congr_baseSymbol (baseSymbol_baseSymbol oneLine) faithful faithful'
  have clone : resolved = (search settings root (shelfAfter settings root earlier) function).2.map
      (Location.ofOutcome function) := rfl
  have bare : resolved' = (search settings root (shelfAfter settings root earlier) function).2.map
      (Location.ofOutcome (baseSymbol function)) := by
    rw [← same]
    rfl
  rw [clone, bare]
  refine ⟨?_, ?_, ?_⟩
  · intro fault
    cases (search settings root (shelfAfter settings root earlier) function).2 with
    | error fault' => exact Iff.rfl
    | ok outcome => exact ⟨nofun, nofun⟩
  · intro location found
    obtain ⟨outcome, outcome_eq, rfl⟩ := of_map_ok found
    rw [outcome_eq]
    exact ⟨Location.function_ofOutcome function outcome, _, rfl,
      Location.function_ofOutcome _ outcome, Location.agrees_ofOutcome function _ outcome⟩
  · intro alive window ahead slice limit
    obtain ⟨outcome, outcome_eq⟩ :=
      exists_search alive window ahead slice limit faithful function
    rw [outcome_eq]
    exact ⟨_, rfl⟩

theorem resolve_baseSymbol_nested :
    '\n' ∉ "f.isra.0.cold".toList ∧ baseSymbol "f.isra.0.cold" = "f" ∧
      ∃ location location',
        (resolve sampleSettings sampleRoot (shelfAfter sampleSettings sampleRoot ["f", "g"])
          "f.isra.0.cold").2 = .ok location ∧
        (resolve sampleSettings sampleRoot (shelfAfter sampleSettings sampleRoot []) "f").2 =
          .ok location' ∧
        location'.status = .resolved ∧ location'.candidates = [(.str "net/a.c", 2)] ∧
        location = { location' with function := .str "f.isra.0.cold" } := by
  have oneLine : '\n' ∉ "f.isra.0.cold".toList := by decide
  have base : baseSymbol "f.isra.0.cold" = "f" := by decide
  obtain ⟨-, -, -, resolves⟩ := resolve_baseSymbol oneLine
  obtain ⟨-, agree, comes⟩ := resolves sampleSettings sampleRoot ["f", "g"] []
  obtain ⟨location, found⟩ := comes rfl rfl rfl rfl rfl
  obtain ⟨named, location', found', -, same⟩ := agree location found
  rw [base] at found'
  obtain rfl := Except.ok.inj (found'.symm.trans resolve_sampleText)
  have resolved : location.status = .resolved := same.status.symm
  have definition := same.definition resolved
  refine ⟨oneLine, base, location, _, found, found', rfl, rfl, ?_⟩
  rw [definition, ← named]

end CallTimeline.Source
