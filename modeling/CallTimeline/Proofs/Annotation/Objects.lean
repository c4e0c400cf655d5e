import CallTimeline.Annotation.Merge
import CallTimeline.Proofs.Json.Fields
import CallTimeline.Proofs.Results

namespace CallTimeline

open Source Json

theorem Json.fields_eq_ok {value : Json} {fields : Fields} :
    value.fields = .ok fields ↔ value = .obj fields := by
  cases value <;> simp [Json.fields]

namespace Merge

def frameName (fields : Fields) : Json :=
  (fields.get? "function").getD .null

def placed (location : Option Location) (fields : Fields) : Fields :=
  match location with
  | some location => place location fields
  | none => fields

section

variable (location : Option Location) (fields : Fields)

theorem placed_get? {key : String} (file : key ≠ "file") (line : key ≠ "line") :
    (placed location fields).get? key = fields.get? key := by
  cases location with
  | none => rfl
  | some location => rw [placed, place, Fields.get?_set_of_ne _ _ line, Fields.get?_set_of_ne _ _ file]

theorem place_place (older newer : Location) :
    place newer (place older fields) = place newer fields := by
  have present : ((fields.set "file" older.file).get? "file").isSome := by simp
  rw [place, place, place, ← Fields.set_comm _ _ _ (by decide) present]
  simp

theorem placed_or (newer : Option Location) :
    placed newer (placed location fields) = placed (newer.or location) fields := by
  cases newer with
  | none => rfl
  | some newer =>
      cases location with
      | none => rfl
      | some older => exact place_place fields older newer

theorem placed_set {key : String} (value : Json) (file : key ≠ "file") (line : key ≠ "line")
    (present : (fields.get? key).isSome) :
    placed location (fields.set key value) = (placed location fields).set key value := by
  cases location with
  | none => rfl
  | some location =>
      have kept : ((fields.set "file" location.file).get? key).isSome := by
        rwa [Fields.get?_set_of_ne _ _ file]
      rw [placed, placed, place, place, Fields.set_comm _ _ _ file present,
        Fields.set_comm _ _ _ line kept]

end

variable {locations : Locations} {value merged : Json} {fields : Fields}

theorem lookup_eq (name : Json) :
    locations.lookup name = name.checkName.map fun _ => locations.find? name := by
  rw [Locations.lookup]
  cases name.checkName <;> rfl

theorem frame_obj :
    Merge.frame locations (.obj fields) = (frameName fields).checkName.map fun _ =>
      .obj (placed (locations.find? (frameName fields)) fields) := by
  change (locations.lookup (frameName fields) >>= _) = _
  rw [lookup_eq]
  cases (frameName fields).checkName with
  | error fault => rfl
  | ok => cases locations.find? (frameName fields) <;> rfl

theorem frame_eq_ok :
    Merge.frame locations value = .ok merged ↔ ∃ fields : Fields, value = .obj fields ∧
      (frameName fields).checkName = .ok () ∧
      merged = .obj (placed (locations.find? (frameName fields)) fields) := by
  constructor
  · intro h
    obtain ⟨fields, isObject, -⟩ := of_bind_ok h
    obtain rfl := fields_eq_ok.mp isObject
    rw [frame_obj] at h
    obtain ⟨_, checked, rfl⟩ := of_map_ok h
    exact ⟨fields, rfl, checked, rfl⟩
  · rintro ⟨fields, rfl, checked, rfl⟩
    rw [frame_obj, checked]
    rfl

def ownLevel (location : Option Location) (fields : Fields) : Except Fault Fields :=
  match fields.get? "source_info" with
  | none => .ok (placed location fields)
  | some info =>
    match location with
    | none => .ok fields
    | some location => info.table.map fun source =>
        fields.set "source_info" (.obj (place location source))

theorem level_eq :
    level locations fields = (nameOf fields).checkName >>= fun _ =>
      ownLevel (locations.find? (nameOf fields)) fields := by
  change (locations.lookup (nameOf fields) >>= _) = _
  rw [lookup_eq]
  cases (nameOf fields).checkName with
  | error fault => rfl
  | ok =>
      rw [ownLevel]
      cases locations.find? (nameOf fields) <;> cases fields.get? "source_info" <;> rfl

def frames (locations : Locations) (stack : Json) : Except Fault Json := do
  return .arr (← (← stack.parts).mapM (Merge.frame locations))

theorem frames_eq_ok {stack located : Json} :
    frames locations stack = .ok located ↔ ∃ parts, stack.parts = .ok parts ∧
      ∃ items, parts.mapM (Merge.frame locations) = .ok items ∧ located = .arr items := by
  rw [frames, bind_eq_ok]
  refine exists_congr fun parts => and_congr_right fun _ => bind_eq_ok.trans ?_
  refine exists_congr fun items => and_congr_right fun _ => ?_
  exact ⟨fun same => (Except.ok.inj same).symm, fun same => congrArg _ same.symm⟩

def withFrames (locations : Locations) (own : Fields) : Except Fault Fields :=
  match own.get? "call_stack" with
  | none => .ok own
  | some stack => (frames locations stack).map fun located => own.set "call_stack" located

theorem ownLevel_get? {location : Option Location} {own : Fields} {key : String}
    (merged : ownLevel location fields = .ok own) (file : key ≠ "file") (line : key ≠ "line")
    (source : key ≠ "source_info") : own.get? key = fields.get? key := by
  unfold ownLevel at merged
  split at merged
  · cases merged
    exact placed_get? location fields file line
  · cases location with
    | none =>
        cases merged
        rfl
    | some location =>
        obtain ⟨_, -, rfl⟩ := of_map_ok merged
        exact Fields.get?_set_of_ne _ _ source

theorem ownLevel_stack {location : Option Location} {own : Fields}
    (merged : ownLevel location fields = .ok own) :
    own.get? "call_stack" = fields.get? "call_stack" :=
  ownLevel_get? merged (by decide) (by decide) (by decide)

theorem withFrames_eq_ok {own whole : Fields} :
    withFrames locations own = .ok whole ↔
      own.get? "call_stack" = none ∧ whole = own ∨
      ∃ stack, own.get? "call_stack" = some stack ∧
        ∃ located, frames locations stack = .ok located ∧
          whole = own.set "call_stack" located := by
  rw [withFrames]
  cases own.get? "call_stack" with
  | none => simp [eq_comm]
  | some stack =>
      simp only [map_eq_ok, reduceCtorEq, false_and, false_or, Option.some.injEq,
        exists_eq_left', @eq_comm _ whole]

theorem withFrames_get? {own whole : Fields} {key : String}
    (merged : withFrames locations own = .ok whole) (stack : key ≠ "call_stack") :
    whole.get? key = own.get? key := by
  obtain ⟨-, rfl⟩ | ⟨_, -, _, -, rfl⟩ := withFrames_eq_ok.mp merged
  · rfl
  · exact Fields.get?_set_of_ne _ _ stack

theorem withFrames_eq {own : Fields} (same : own.get? "call_stack" = fields.get? "call_stack") :
    (match fields.get? "call_stack" with
      | some stack => do
        let located ← (← stack.parts).mapM (Merge.frame locations)
        return .obj (own.set "call_stack" (.arr located))
      | none => return .obj own) = (withFrames locations own).map Json.obj := by
  rw [withFrames, same]
  cases fields.get? "call_stack" with
  | none => rfl
  | some stack =>
      simp only [frames]
      cases stack.parts with
      | error fault => rfl
      | ok parts =>
          change (parts.mapM (Merge.frame locations) >>= _) =
            ((parts.mapM (Merge.frame locations) >>= _).map _).map _
          cases parts.mapM (Merge.frame locations) <;> rfl

theorem entry_eq_ok :
    Merge.entry locations value = .ok merged ↔ ∃ fields : Fields, value = .obj fields ∧
      (nameOf fields).checkName = .ok () ∧
      ∃ own, ownLevel (locations.find? (nameOf fields)) fields = .ok own ∧
        ∃ whole, withFrames locations own = .ok whole ∧ merged = .obj whole := by
  constructor
  · intro h
    obtain ⟨_, -, opened⟩ := of_bind_ok h
    obtain ⟨fields, isObject, leveled⟩ := of_bind_ok opened
    obtain ⟨own, level_ok, result⟩ := of_bind_ok leveled
    rw [level_eq] at level_ok
    obtain ⟨_, checked, own_eq⟩ := of_bind_ok level_ok
    have same := ownLevel_stack own_eq
    obtain ⟨whole, located, rfl⟩ := of_map_ok ((withFrames_eq same).symm.trans result)
    exact ⟨fields, fields_eq_ok.mp isObject, checked, own, own_eq, whole, located, rfl⟩
  · rintro ⟨fields, rfl, checked, own, own_eq, whole, located, rfl⟩
    have level_ok : level locations fields = .ok own := by
      rw [level_eq, checked]
      exact own_eq
    have same := ownLevel_stack own_eq
    change (level locations fields >>= _) = _
    rw [level_ok]
    exact (withFrames_eq same).trans (congrArg (Except.map Json.obj) located)

theorem document_eq_ok :
    Merge.document locations value = .ok merged ↔ ∃ fields : Fields, value = .obj fields ∧
      ∃ items, ((fields.get? "timeline").getD (.arr [])).parts = .ok items ∧
        ∃ entries, items.mapM (Merge.entry locations) = .ok entries ∧
          merged = .obj (fields.set "timeline" (.arr entries)) := by
  constructor
  · intro h
    obtain ⟨_, -, opened⟩ := of_bind_ok h
    obtain ⟨fields, isObject, listed⟩ := of_bind_ok opened
    obtain ⟨items, items_eq, traversed⟩ := of_bind_ok listed
    obtain ⟨entries, entries_eq, result⟩ := of_bind_ok traversed
    cases result
    exact ⟨fields, fields_eq_ok.mp isObject, items, items_eq, entries, entries_eq, rfl⟩
  · rintro ⟨fields, rfl, items, items_eq, entries, entries_eq, rfl⟩
    change (Json.parts _ >>= _) = _
    rw [items_eq]
    change (items.mapM (Merge.entry locations) >>= _) = _
    rw [entries_eq]
    rfl

theorem document_of_list {entries : List Json}
    (listed : fields.get? "timeline" = some (.arr entries)) :
    Merge.document locations (.obj fields) =
      (entries.mapM (Merge.entry locations)).map fun merged =>
        .obj (fields.set "timeline" (.arr merged)) := by
  have parts : ((fields.get? "timeline").getD (.arr [])).parts = .ok entries := by
    rw [listed]
    rfl
  change (Json.parts _ >>= _) = _
  rw [parts, ok_bind]
  cases entries.mapM (Merge.entry locations) <;> rfl

end Merge

end CallTimeline
