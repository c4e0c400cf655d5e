import CallTimeline.Annotation.Merge
import CallTimeline.Proofs.Results
import CallTimeline.Timeline.Build

namespace CallTimeline

open Source

structure Json.IsName (value : Json) : Prop where
  checked : value.checkName = .ok ()
  nonempty : value.isTruthy = true

theorem Json.isName_str {name : String} (nonempty : name ≠ "") : (Json.str name).IsName where
  checked := rfl
  nonempty := by simpa [Json.isTruthy] using nonempty

def Frame.withLocation (locations : Locations) (frame : Frame Json) :
    Except Fault (Frame Json) := do
  match ← locations.lookup frame.function with
  | some location => return { frame with file := location.file, line := location.line }
  | none => return frame

def Entry.withOwn (location : Option Location) (entry : Entry) : Entry :=
  match location with
  | some location => { entry with file := location.file, line := location.line }
  | none => entry

def Entry.record (entry : Entry) : Json.Fields :=
  match entry.toJson with
  | .obj fields => fields
  | _ => []

theorem lookup_of_checkName (locations : Locations) {value : Json}
    (checked : value.checkName = .ok ()) :
    locations.lookup value = .ok (locations.find? value) := by
  rw [Locations.lookup, checked]
  rfl

theorem Frame.withLocation_ok (locations : Locations) {frame : Frame Json}
    (checked : frame.function.checkName = .ok ()) :
    ∃ located, frame.withLocation locations = .ok located := by
  rw [Frame.withLocation, lookup_of_checkName locations checked]
  cases locations.find? frame.function <;> exact ⟨_, rfl⟩

theorem Entry.withLocations_eq (locations : Locations) {entry : Entry}
    (name : entry.function.IsName) :
    entry.withLocations locations =
      (entry.stack.mapM (Frame.withLocation locations)).map fun stack =>
        { entry.withOwn (locations.find? entry.function) with stack } := by
  unfold Entry.withLocations
  change (entry.stack.mapM (Frame.withLocation locations) >>= _) = _
  cases entry.stack.mapM (Frame.withLocation locations) with
  | error fault => rfl
  | ok stack =>
      change (locations.lookup entry.function >>= _) = _
      rw [lookup_of_checkName locations name.checked]
      cases locations.find? entry.function <;> rfl

namespace Merge

variable (locations : Locations)

theorem frame_toJson (frame : Frame Json) :
    Merge.frame locations frame.toJson = (frame.withLocation locations).map Frame.toJson := by
  unfold Merge.frame Frame.withLocation
  change (locations.lookup frame.function >>= _) = _
  cases locations.lookup frame.function with
  | error fault => rfl
  | ok found => cases found <;> rfl

theorem nameOf_record {entry : Entry} (name : entry.function.IsName) :
    nameOf entry.record = entry.function :=
  if_pos name.nonempty

theorem level_record {entry : Entry} (name : entry.function.IsName) :
    level locations entry.record = .ok (entry.withOwn (locations.find? entry.function)).record := by
  rw [level, nameOf_record name, lookup_of_checkName locations name.checked]
  cases locations.find? entry.function <;> rfl

theorem entry_toJson {entry : Entry} (name : entry.function.IsName) :
    Merge.entry locations entry.toJson = (entry.withLocations locations).map Entry.toJson := by
  have own := level_record locations name
  have frames := mapM_map_eq_map_mapM fun frame (_ : frame ∈ entry.stack) =>
    frame_toJson locations frame
  rw [Entry.withLocations_eq locations name]
  change (level locations entry.record >>= fun merged =>
    (entry.stack.map Frame.toJson).mapM (Merge.frame locations) >>= fun frames =>
      (.ok (Json.obj (merged.set "call_stack" (.arr frames))) : Except Fault Json)) = _
  rw [own, frames]
  cases entry.stack.mapM (Frame.withLocation locations) with
  | error fault => rfl
  | ok stack => cases locations.find? entry.function <;> rfl

/-- Merging locations into the document of some entries gives the document of the entries with these
locations, or the same fault. There is none if all frames are named by something that can be looked
up. -/
theorem document_toJson {entries : List Entry}
    (names : ∀ entry ∈ entries, entry.function.IsName) :
    Merge.document locations (.obj [("timeline", .arr (entries.map Entry.toJson))]) =
        (entries.mapM (Entry.withLocations locations)).map (fun merged =>
          .obj [("timeline", .arr (merged.map Entry.toJson))]) ∧
      ((∀ entry ∈ entries, ∀ frame ∈ entry.stack, frame.function.checkName = .ok ()) →
        ∃ merged, entries.mapM (Entry.withLocations locations) = .ok merged) := by
  constructor
  · have records := mapM_map_eq_map_mapM fun entry member =>
      entry_toJson locations (names entry member)
    change ((entries.map Entry.toJson).mapM (Merge.entry locations) >>= fun merged =>
      (.ok (Json.obj [("timeline", .arr merged)]) : Except Fault Json)) = _
    rw [records]
    cases entries.mapM (Entry.withLocations locations) <;> rfl
  · intro checked
    refine mapM_ok_of_forall fun entry member => ?_
    obtain ⟨stack, frames⟩ := mapM_ok_of_forall fun frame among =>
      Frame.withLocation_ok locations (checked entry member frame among)
    rw [Entry.withLocations_eq locations (names entry member), frames]
    exact ⟨_, rfl⟩

def sampleEntry (settings : Trace.Settings) : Entry :=
  Timeline.entryAt settings 1
    { seq := 1
      function := "f"
      kind := .entry
      depth := 1
      stack := [Trace.Replay.frameOf settings "g" 0, Trace.Replay.frameOf settings "f" 1]
      cpu := 0
      task := ""
      duration := none } .other

def sampleLocations : Locations :=
  [(.str "g",
    { Location.placeholder (.str "g") .unresolved with file := .str "net/g.c", line := 7 })]

theorem document_toJson_sample :
    (∀ entry ∈ [sampleEntry {}], entry.function.IsName) ∧
      (∀ entry ∈ [sampleEntry {}], ∀ frame ∈ entry.stack, frame.function.checkName = .ok ()) ∧
      ∃ merged, [sampleEntry {}].mapM (Entry.withLocations sampleLocations) = .ok merged ∧
        Merge.document sampleLocations
            (.obj [("timeline", .arr ([sampleEntry {}].map Entry.toJson))]) =
          .ok (.obj [("timeline", .arr (merged.map Entry.toJson))]) ∧
        merged.map (fun entry => (entry.line, entry.stack.map (·.line))) = [(1, [7, 1])] := by
  have names : ∀ entry ∈ [sampleEntry {}], entry.function.IsName :=
    List.forall_mem_singleton.mpr (Json.isName_str (by decide))
  have frames : ∀ entry ∈ [sampleEntry {}], ∀ frame ∈ entry.stack,
      frame.function.checkName = .ok () := by
    refine List.forall_mem_singleton.mpr fun frame member => ?_
    obtain ⟨frame, -, rfl⟩ := List.mem_map.mp member
    rfl
  obtain ⟨records, succeeds⟩ := document_toJson sampleLocations names
  obtain ⟨merged, ok⟩ := succeeds frames
  rw [ok] at records
  refine ⟨names, frames, merged, ok, records, ?_⟩
  have lines : ([sampleEntry {}].mapM (Entry.withLocations sampleLocations)).map
      (List.map fun entry => (entry.line, entry.stack.map (·.line))) = .ok [(1, [7, 1])] := by rfl
  rw [ok] at lines
  exact Except.ok.inj lines

end Merge

end CallTimeline
