import CallTimeline.Proofs.Json.Names
import CallTimeline.Proofs.Results
import CallTimeline.Source.Location

namespace CallTimeline.Source

open Json

theorem Status.ofJson_word (status : Status) : Status.ofJson (.str status.word) = .ok status := by
  cases status <;> rfl

theorem BodyStatus.ofJson_word (status : BodyStatus) :
    BodyStatus.ofJson (.str status.word) = .ok status := by
  cases status <;> rfl

theorem Location.ofJson_toJson (location : Location) :
    Location.ofJson location.function location.toJson = .ok location := by
  have candidates : (location.candidates.map fun pair =>
      Json.arr [pair.1, .int pair.2]).mapM candidate = .ok location.candidates := by
    rw [List.mapM_map]
    exact (mapM_eq_ok_map fun _ _ => rfl).trans (congrArg Except.ok (List.map_id _))
  have fields : Location.ofJson location.function location.toJson =
      (do
        let candidates ← (location.candidates.map fun pair =>
          Json.arr [pair.1, .int pair.2]).mapM candidate
        let status ← Status.ofJson (.str location.status.word)
        let bodyStatus ← BodyStatus.ofJson (.str location.bodyStatus.word)
        return { location with candidates, status, bodyStatus }) := rfl
  rw [fields, candidates, Status.ofJson_word, BodyStatus.ofJson_word]
  rfl

theorem Locations.find?_str {locate : Json → Location} {locations : Locations} {text : String}
    (located : ∀ entry ∈ locations, entry.2 = locate entry.1)
    (member : .str text ∈ locations.map (·.1)) :
    locations.find? (.str text) = some (locate (.str text)) := by
  induction locations with
  | nil => cases member
  | cons entry rest ih =>
      rw [Locations.find?, List.find?_cons]
      cases same : entry.1.sameName (.str text) with
      | true => rw [Option.map_some, located entry List.mem_cons_self, sameName_str.mp same]
      | false =>
          refine ih (List.forall_mem_of_forall_mem_cons located) ?_
          refine (List.mem_cons.mp member).resolve_left fun here => ?_
          exact absurd (sameName_str.mpr here.symm) (Bool.eq_false_iff.mp same)

theorem unresolved_of_text {locations : Locations} (text : ∀ entry ∈ locations, entry.1.IsText) :
    ∃ names, locations.unresolved = .ok names := by
  have names : ∀ entry ∈ (locations.filter (!·.2.isResolved)).map (fun entry => (entry.1, ())),
      entry.1.IsText := by
    intro entry member
    obtain ⟨entry, kept, rfl⟩ := List.mem_map.mp member
    exact text entry (List.mem_of_mem_filter kept)
  rw [Locations.unresolved, sortByName_of_text names]
  exact ⟨_, rfl⟩

def Locations.Belong (locate : Json → Location) (locations : Locations) : Prop :=
  ∀ entry ∈ locations, entry.1.IsText ∧ entry.2.function = entry.1 ∧ entry.2 = locate entry.1

section

variable {locate : Json → Location} {locations others : Locations} {name : Json}

theorem Locations.Belong.find?_of_mem (belong : locations.Belong locate)
    (member : name ∈ locations.map (·.1)) : locations.find? name = some (locate name) := by
  obtain ⟨entry, among, rfl⟩ := List.mem_map.mp member
  obtain ⟨⟨text, name_eq⟩, -, -⟩ := belong entry among
  rw [name_eq] at member ⊢
  exact Locations.find?_str (fun entry among => (belong entry among).2.2) member

theorem Locations.Belong.find?_of_notMem (belong : locations.Belong locate)
    (absent : name ∉ locations.map (·.1)) : locations.find? name = none := by
  rw [Locations.find?, List.find?_eq_none.mpr, Option.map_none]
  intro entry member same
  obtain ⟨⟨text, name_eq⟩, -, -⟩ := belong entry member
  rw [name_eq] at same
  obtain rfl := str_sameName.mp same
  exact absent (name_eq ▸ List.mem_map_of_mem member)

theorem Locations.Belong.find?_congr (belong : locations.Belong locate)
    (belong' : others.Belong locate)
    (same : ∀ name, name ∈ locations.map (·.1) ↔ name ∈ others.map (·.1)) (name : Json) :
    locations.find? name = others.find? name := by
  by_cases member : name ∈ locations.map (·.1)
  · rw [belong.find?_of_mem member, belong'.find?_of_mem ((same name).mp member)]
  · rw [belong.find?_of_notMem member, belong'.find?_of_notMem (mt (same name).mpr member)]

end

theorem Locations.ofFields_of_text {entries : Locations}
    (named : ∀ entry ∈ entries, entry.1.IsText ∧ entry.2.function = entry.1) :
    Locations.ofFields (entries.map fun (name, location) => (name.keyText, location.toJson)) =
      .ok entries := by
  rw [Locations.ofFields, List.mapM_map]
  refine (mapM_eq_ok_map fun entry member => ?_).trans (congrArg Except.ok (List.map_id entries))
  obtain ⟨name, location⟩ := entry
  obtain ⟨⟨text, rfl⟩, function⟩ := named _ member
  have back := location.ofJson_toJson
  rw [function] at back
  change (Location.ofJson (.str text) location.toJson >>= _) = _
  rw [back]
  rfl

theorem Locations.Belong.toJson {locate : Json → Location} {locations : Locations}
    (belong : locations.Belong locate) :
    ∃ fields, locations.toJson = .ok (.obj fields) ∧
      ∃ back, Locations.ofFields fields = .ok back ∧ back.Belong locate ∧
        ∀ name, name ∈ back.map (·.1) ↔ name ∈ locations.map (·.1) := by
  let sorted := locations.mergeSort fun a b => nameLE a.1 b.1
  have written : sortByName locations = .ok sorted :=
    sortByName_of_text fun entry member => (belong entry member).1
  have perm : sorted.Perm locations := List.mergeSort_perm locations _
  have belong' : Locations.Belong locate sorted := fun entry member =>
    belong entry (perm.mem_iff.mp member)
  refine ⟨_, by rw [Locations.toJson, written]; rfl, sorted,
    Locations.ofFields_of_text fun entry member => ?_, belong', fun name => (perm.map _).mem_iff⟩
  obtain ⟨text, function, -⟩ := belong' entry member
  exact ⟨text, function⟩

end CallTimeline.Source
