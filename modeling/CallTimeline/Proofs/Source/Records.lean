import CallTimeline.Proofs.Json.Convert
import CallTimeline.Source.Location

namespace CallTimeline

def Fault.isMisfit : Fault → Bool
  | .notInteger _ | .tooManyDigits _ | .nanAsInteger | .unknownWord .. | .tooManyParts
  | .tooFewParts .. => true
  | _ => false

def Fault.isMisshapen : Fault → Bool
  | .missingField _ | .mismatch _ => true
  | _ => false

namespace Source

open Json

inductive Trouble (endless : Prop) : Fault → Prop
  | misfit {fault : Fault} (kind : fault.isMisfit = true) : Trouble endless fault
  | misshapen {fault : Fault} (kind : fault.isMisshapen = true) : Trouble endless fault
  | infinite (there : endless) : Trouble endless .infinityAsInteger

section

variable {endless endless' : Prop}

theorem Trouble.mono (weaker : endless → endless') (fault : Fault) (trouble : Trouble endless fault) :
    Trouble endless' fault := by
  cases trouble with
  | misfit kind => exact .misfit kind
  | misshapen kind => exact .misshapen kind
  | infinite there => exact .infinite (weaker there)

theorem faultsIn_toInt (value : Json) : FaultsIn (Trouble value.IsInfinite) value.toInt := by
  cases value with
  | real value =>
      rw [toInt]
      cases shape : Double.shape value with
      | nan => exact faultsIn_error (.misfit rfl)
      | infinite negative => exact faultsIn_error (.infinite ⟨value, negative, rfl, shape⟩)
      | finite => exact faultsIn_ok _
  | str text =>
      rw [toInt]
      rcases Number.integer text.toList with (_ | _) | _
      · exact faultsIn_error (.misfit rfl)
      · exact faultsIn_error (.misfit rfl)
      · exact faultsIn_ok _
  | int | bool => exact faultsIn_ok _
  | _ => exact faultsIn_error (.misshapen rfl)

theorem faultsIn_parts (value : Json) : FaultsIn (Trouble endless) value.parts := by
  rw [parts]
  cases value.parts? with
  | none => exact faultsIn_error (.misshapen rfl)
  | some => exact faultsIn_ok _

theorem faultsIn_toWord {α : Type} (kind : String) (word : α → String) (all : List α)
    (value : Json) : FaultsIn (Trouble endless) (toWord kind word all value) := by
  rw [toWord.eq_def]
  split
  · split
    · exact faultsIn_ok _
    · exact faultsIn_error (.misfit rfl)
  · exact faultsIn_error (.misfit rfl)

theorem faultsIn_field (value : Json) (key : String) :
    FaultsIn (Trouble endless) (value.field key) := by
  cases value with
  | obj fields =>
      rw [field]
      cases fields.lookup key with
      | none => exact faultsIn_error (.misshapen rfl)
      | some => exact faultsIn_ok _
  | _ => exact faultsIn_error (.misshapen rfl)

end

def HasLine (place line : Json) : Prop :=
  ∃ file, place.parts? = some [file, line]

inductive HasNumber (record : Json) : Json → Prop
  | line {value : Json} (field : record.field "line" = .ok value) : HasNumber record value
  | lineCount {value : Json} (field : record.fieldD "line_count" (.int 0) = .ok value) :
      HasNumber record value
  | candidate {places place line : Json} {items : List Json}
      (field : record.fieldD "all_matches" (.arr []) = .ok places)
      (parts : places.parts? = some items) (member : place ∈ items) (has : HasLine place line) :
      HasNumber record line

def IsEndless (record : Json) : Prop :=
  ∃ number, HasNumber record number ∧ number.IsInfinite

theorem faultsIn_candidate (place : Json) :
    FaultsIn (Trouble (∃ line, HasLine place line ∧ line.IsInfinite)) (Location.candidate place) := by
  rw [Location.candidate]
  split
  case h_1 => exact faultsIn_error (.misshapen rfl)
  case h_2 file line pair =>
    have line_in := (faultsIn_toInt line).mono (Trouble.mono fun infinite =>
      (⟨line, ⟨file, pair⟩, infinite⟩ : ∃ line, HasLine place line ∧ line.IsInfinite))
    exact line_in.bind fun _ _ => faultsIn_ok _
  case h_3 => split <;> exact faultsIn_error (.misfit rfl)

theorem faultsIn_location (function record : Json) :
    FaultsIn (Trouble (IsEndless record)) (Location.ofJson function record) := by
  have number {value : Json} (has : HasNumber record value) :
      FaultsIn (Trouble (IsEndless record)) value.toInt :=
    (faultsIn_toInt value).mono (Trouble.mono fun infinite => ⟨value, has, infinite⟩)
  refine (faultsIn_field record "file").bind fun file present => ?_
  obtain ⟨fields, rfl, -⟩ := field_eq_ok.mp present
  have optional (key : String) (default : Json) :
      FaultsIn (Trouble (IsEndless (.obj fields))) ((Json.obj fields).fieldD key default) :=
    faultsIn_ok _
  refine (faultsIn_field _ "line").bind fun line field => (number (.line field)).bind fun _ _ => ?_
  refine (optional _ _).bind fun _ _ => ?_
  refine (optional _ _).bind fun count field => (number (.lineCount field)).bind fun _ _ => ?_
  refine (optional _ _).bind fun places field => (faultsIn_parts places).bind fun items parts => ?_
  refine (FaultsIn.mapM fun place member => ?_).bind fun _ _ => ?_
  · refine (faultsIn_candidate place).mono (Trouble.mono ?_)
    rintro ⟨line, has, infinite⟩
    exact ⟨line, .candidate field (parts_eq_ok.mp parts) member has, infinite⟩
  refine (optional _ _).bind fun status _ => (faultsIn_toWord _ _ _ status).bind fun _ _ => ?_
  refine (optional _ _).bind fun body _ => (faultsIn_toWord _ _ _ body).bind fun _ _ => ?_
  exact faultsIn_ok _

theorem numbers_of_location {function record : Json} {location : Location}
    (read : Location.ofJson function record = .ok location) {value : Json}
    (has : HasNumber record value) : ∃ n, value.toInt = .ok n := by
  obtain ⟨file, -, read⟩ := of_bind_ok read
  obtain ⟨line, line_eq, read⟩ := of_bind_ok read
  obtain ⟨n, line_read, read⟩ := of_bind_ok read
  obtain ⟨text, -, read⟩ := of_bind_ok read
  obtain ⟨count, count_eq, read⟩ := of_bind_ok read
  obtain ⟨m, count_read, read⟩ := of_bind_ok read
  obtain ⟨places, places_eq, read⟩ := of_bind_ok read
  obtain ⟨items, parts, read⟩ := of_bind_ok read
  obtain ⟨candidates, candidates_read, read⟩ := of_bind_ok read
  cases has with
  | line field =>
      obtain rfl := Except.ok.inj (line_eq.symm.trans field)
      exact ⟨n, line_read⟩
  | lineCount field =>
      obtain rfl := Except.ok.inj (count_eq.symm.trans field)
      exact ⟨m, count_read⟩
  | candidate field parts' member pair =>
      obtain rfl := Except.ok.inj (places_eq.symm.trans field)
      obtain rfl := Option.some.inj ((parts_eq_ok.mp parts).symm.trans parts')
      obtain ⟨pair_read, here⟩ := exists_of_mapM_ok candidates_read member
      obtain ⟨file, pair⟩ := pair
      rw [Location.candidate, pair] at here
      obtain ⟨k, line_read, -⟩ := of_bind_ok here
      exact ⟨k, line_read⟩

theorem function_of_location {function record : Json} {location : Location}
    (read : Location.ofJson function record = .ok location) : location.function = function := by
  iterate 13 obtain ⟨_, -, read⟩ := of_bind_ok read
  cases read
  rfl

variable {records : Fields}

theorem faultsIn_ofFields (records : Fields) :
    FaultsIn (Trouble (∃ field ∈ records, IsEndless field.2)) (Locations.ofFields records) := by
  refine FaultsIn.mapM fun field member => FaultsIn.bind ?_ fun _ _ => faultsIn_ok _
  exact (faultsIn_location (.str field.1) field.2).mono
    (Trouble.mono fun endless => ⟨field, member, endless⟩)

theorem named_of_ofFields {locations : Locations} (read : Locations.ofFields records = .ok locations) :
    locations.map (·.1) = records.map (fun field => .str field.1) ∧
      ∀ entry ∈ locations, entry.2.function = entry.1 := by
  constructor
  · refine map_of_mapM_ok (fun field entry here => ?_) read
    obtain ⟨location, -, here⟩ := of_bind_ok here
    cases here
    rfl
  · intro entry member
    obtain ⟨field, -, here⟩ := exists_of_mem_mapM_ok read member
    obtain ⟨location, location_eq, here⟩ := of_bind_ok here
    cases here
    exact function_of_location location_eq

theorem not_isEndless_of_ofFields {locations : Locations}
    (read : Locations.ofFields records = .ok locations) :
    ∀ field ∈ records, ¬ IsEndless field.2 := by
  rintro field member ⟨number, has, infinite⟩
  obtain ⟨entry, here⟩ := exists_of_mapM_ok read member
  obtain ⟨location, location_eq, -⟩ := of_bind_ok here
  obtain ⟨n, whole⟩ := numbers_of_location location_eq has
  cases infinite.toInt_eq.symm.trans whole

end Source

end CallTimeline
