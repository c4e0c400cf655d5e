import CallTimeline.Proofs.Annotation.Objects

namespace CallTimeline.Merge

open Source Json

structure Located (location : Option Location) (before after : Fields) : Prop where
  kept : after.without ["file", "line"] = before.without ["file", "line"]
  unnamed : location = none → after = before
  named : ∀ found, location = some found →
    after.get? "file" = some found.file ∧ after.get? "line" = some (.int found.line)

theorem located_placed (location : Option Location) (fields : Fields) :
    Located location fields (placed location fields) := by
  cases location with
  | none => exact ⟨rfl, fun _ => rfl, fun _ h => nomatch h⟩
  | some location =>
      refine ⟨?_, fun h => (nomatch h), ?_⟩
      · rw [placed, place, Fields.without_set _ _ (by decide), Fields.without_set _ _ (by decide)]
      · rintro _ ⟨⟩
        rw [placed, place, Fields.get?_set_of_ne _ _ (by decide)]
        exact ⟨Fields.get?_set_self _ _, Fields.get?_set_self _ _⟩

theorem placed_without (location : Option Location) (fields : Fields) {keys : List String}
    (file : "file" ∉ keys) (line : "line" ∉ keys) :
    (placed location fields).without keys = placed location (fields.without keys) := by
  cases location with
  | none => rfl
  | some location =>
      rw [placed, place, Fields.without_set_of_notMem _ _ line,
        Fields.without_set_of_notMem _ _ file]
      rfl

/-- The source information is an object and the stack a list of objects, where there are any. -/
structure Shaped (entry : Fields) : Prop where
  source : ∀ value, entry.get? "source_info" = some value → ∃ info, value = .obj info
  stack : ∀ value, entry.get? "call_stack" = some value →
    ∃ frames : List Fields, value = .arr (frames.map .obj)

structure Lookable (entry : Fields) : Prop where
  own : (nameOf entry).checkName = .ok ()
  frames : ∀ stack : List Fields, entry.get? "call_stack" = some (.arr (stack.map .obj)) →
    ∀ frame ∈ stack, (frameName frame).checkName = .ok ()

/-- Only files and lines have changed: of an entry with source information those in it, of another
one its own, and of both those of the frames, none of which is added, removed or moved. -/
structure EntryLocated (locations : Locations) (before after : Fields) : Prop where
  source : ∀ info, before.get? "source_info" = some (.obj info) →
    after.without ["source_info", "call_stack"] = before.without ["source_info", "call_stack"] ∧
      ∃ info', after.get? "source_info" = some (.obj info') ∧
        Located (locations.find? (nameOf before)) info info'
  flat : before.get? "source_info" = none →
    Located (locations.find? (nameOf before)) (before.without ["call_stack"])
      (after.without ["call_stack"])
  unnamed : locations.find? (nameOf before) = none →
    after.without ["call_stack"] = before.without ["call_stack"]
  stack : ∀ frames : List Fields, before.get? "call_stack" = some (.arr (frames.map .obj)) →
    ∃ frames' : List Fields, after.get? "call_stack" = some (.arr (frames'.map .obj)) ∧
      List.Forall₂ (fun frame => Located (locations.find? (frameName frame)) frame) frames frames'
  noStack : before.get? "call_stack" = none → after.get? "call_stack" = none

variable {locations : Locations}

theorem ownLevel_source {location : Option Location} {fields own info : Fields}
    (present : fields.get? "source_info" = some (.obj info))
    (level_ok : ownLevel location fields = .ok own) :
    own.without ["source_info", "call_stack"] = fields.without ["source_info", "call_stack"] ∧
      own.get? "source_info" = some (.obj (placed location info)) := by
  rw [ownLevel, present] at level_ok
  cases location with
  | none =>
      cases level_ok
      exact ⟨rfl, present⟩
  | some location =>
      cases level_ok
      exact ⟨Fields.without_set _ _ (by decide), Fields.get?_set_self _ _⟩

theorem ownLevel_flat {location : Option Location} {fields own : Fields}
    (absent : fields.get? "source_info" = none) (level_ok : ownLevel location fields = .ok own) :
    own = placed location fields := by
  rw [ownLevel, absent] at level_ok
  exact (Except.ok.inj level_ok).symm

theorem ownLevel_none {fields own : Fields} (level_ok : ownLevel none fields = .ok own) :
    own = fields := by
  rw [ownLevel] at level_ok
  split at level_ok <;> exact (Except.ok.inj level_ok).symm

theorem withFrames_without {own whole : Fields} {keys : List String}
    (merged : withFrames locations own = .ok whole) (member : "call_stack" ∈ keys) :
    whole.without keys = own.without keys := by
  obtain ⟨-, rfl⟩ | ⟨_, -, _, -, rfl⟩ := withFrames_eq_ok.mp merged
  · rfl
  · exact Fields.without_set _ _ member

theorem frames_located {stack : List Fields} {located : Json}
    (merged : frames locations (.arr (stack.map .obj)) = .ok located) :
    ∃ frames' : List Fields, located = .arr (frames'.map .obj) ∧
      List.Forall₂ (fun frame => Located (locations.find? (frameName frame)) frame)
        stack frames' := by
  obtain ⟨_, same, items, traversed, rfl⟩ := frames_eq_ok.mp merged
  cases same
  obtain ⟨frames', rfl, related⟩ := forall₂_of_mapM_ok (fun frame _ value frame_ok => by
    obtain ⟨_, same, -, rfl⟩ := frame_eq_ok.mp frame_ok
    cases same
    exact ⟨_, rfl, located_placed _ frame⟩) traversed
  exact ⟨frames', rfl, related⟩

theorem entry_located {before : Fields} {merged : Json}
    (entry_ok : Merge.entry locations (.obj before) = .ok merged) :
    ∃ after, merged = .obj after ∧ EntryLocated locations before after := by
  obtain ⟨_, same, -, own, level_ok, whole, framed, rfl⟩ := entry_eq_ok.mp entry_ok
  cases same
  have outside : whole.without ["call_stack"] = own.without ["call_stack"] :=
    withFrames_without framed (by decide)
  refine ⟨whole, rfl, ?_, ?_, ?_, ?_, ?_⟩
  case refine_1 =>
    intro info present
    obtain ⟨kept, placed_eq⟩ := ownLevel_source present level_ok
    refine ⟨(withFrames_without framed (by decide)).trans kept, _, ?_, located_placed _ info⟩
    rw [withFrames_get? framed (by decide), placed_eq]
  case refine_2 =>
    intro absent
    rw [outside, ownLevel_flat absent level_ok, placed_without _ _ (by decide) (by decide)]
    exact located_placed _ _
  case refine_3 =>
    intro unnamed
    rw [unnamed] at level_ok
    rw [outside, ownLevel_none level_ok]
  case refine_4 =>
    intro stack present
    have present := (ownLevel_stack level_ok).trans present
    obtain ⟨absent, -⟩ | ⟨_, same, located, frames_ok, rfl⟩ := withFrames_eq_ok.mp framed
    · cases absent.symm.trans present
    · cases present.symm.trans same
      obtain ⟨frames', rfl, related⟩ := frames_located frames_ok
      exact ⟨frames', Fields.get?_set_self _ _, related⟩
  case refine_5 =>
    intro absent
    have absent := (ownLevel_stack level_ok).trans absent
    obtain ⟨-, rfl⟩ | ⟨_, present, -⟩ := withFrames_eq_ok.mp framed
    · exact absent
    · cases absent.symm.trans present

theorem exists_frames_ok {stack : List Fields} :
    (∃ located, frames locations (.arr (stack.map .obj)) = .ok located) ↔
      ∀ frame ∈ stack, (frameName frame).checkName = .ok () := by
  have one (frame : Fields) : (∃ merged, Merge.frame locations (.obj frame) = .ok merged) ↔
      (frameName frame).checkName = .ok () := by
    constructor
    · rintro ⟨_, frame_ok⟩
      obtain ⟨_, same, checked, -⟩ := frame_eq_ok.mp frame_ok
      cases same
      exact checked
    · exact fun checked => ⟨_, frame_eq_ok.mpr ⟨frame, rfl, checked, rfl⟩⟩
  calc (∃ located, frames locations (.arr (stack.map .obj)) = .ok located)
      ↔ ∃ items, (stack.map Json.obj).mapM (Merge.frame locations) = .ok items := by
        constructor
        · rintro ⟨_, located⟩
          obtain ⟨_, same, items, traversed, -⟩ := frames_eq_ok.mp located
          cases same
          exact ⟨items, traversed⟩
        · rintro ⟨items, traversed⟩
          exact ⟨_, frames_eq_ok.mpr ⟨_, rfl, items, traversed, rfl⟩⟩
    _ ↔ ∀ frame ∈ stack, (frameName frame).checkName = .ok () := by
        rw [exists_mapM_ok, List.forall_mem_map]
        exact forall₂_congr fun frame _ => one frame

theorem Shaped.ownLevel_ok {fields : Fields} (shaped : Shaped fields)
    (location : Option Location) : ∃ own, ownLevel location fields = .ok own := by
  rw [ownLevel]
  cases present : fields.get? "source_info" with
  | none => exact ⟨_, rfl⟩
  | some value =>
      obtain ⟨info, rfl⟩ := shaped.source value present
      cases location <;> exact ⟨_, rfl⟩

theorem Shaped.withFrames_ok {fields own : Fields} (shaped : Shaped fields)
    (same : own.get? "call_stack" = fields.get? "call_stack") :
    (∃ whole, withFrames locations own = .ok whole) ↔
      ∀ stack : List Fields, fields.get? "call_stack" = some (.arr (stack.map .obj)) →
        ∀ frame ∈ stack, (frameName frame).checkName = .ok () := by
  rw [withFrames, same]
  cases present : fields.get? "call_stack" with
  | none => simp
  | some value =>
      obtain ⟨stack, rfl⟩ := shaped.stack value present
      have stack_eq (other : List Fields) :
          some (.arr (stack.map .obj)) = some (Json.arr (other.map .obj)) ↔ other = stack := by
        rw [Option.some_inj, Json.arr.injEq, eq_comm,
          (List.map_injective_iff.mpr fun _ _ => Json.obj.inj).eq_iff]
      simp only [map_eq_ok, stack_eq, forall_eq]
      rw [← @exists_frames_ok locations stack]
      constructor
      · rintro ⟨_, located, frames_ok, -⟩
        exact ⟨located, frames_ok⟩
      · rintro ⟨located, frames_ok⟩
        exact ⟨_, located, frames_ok, rfl⟩

theorem Shaped.entry_ok {entry : Fields} (shaped : Shaped entry) :
    (∃ merged, Merge.entry locations (.obj entry) = .ok merged) ↔ Lookable entry := by
  constructor
  · rintro ⟨_, entry_ok⟩
    obtain ⟨_, same, checked, own, level_ok, whole, framed, -⟩ := entry_eq_ok.mp entry_ok
    cases same
    exact ⟨checked, (shaped.withFrames_ok (ownLevel_stack level_ok)).mp ⟨whole, framed⟩⟩
  · intro names
    obtain ⟨own, level_ok⟩ := shaped.ownLevel_ok (locations.find? (nameOf entry))
    obtain ⟨whole, framed⟩ := (shaped.withFrames_ok (ownLevel_stack level_ok)).mpr names.frames
    exact ⟨_, entry_eq_ok.mpr ⟨entry, rfl, names.own, own, level_ok, whole, framed, rfl⟩⟩

/-- Merging into a document of entries succeeds just if all names can be looked up. It keeps the
other fields of the document and the entries in their order, and in these changes only files and
lines. -/
theorem document_located (locations : Locations) {fields : Fields} {entries : List Fields}
    (timeline : (fields.get? "timeline").getD (.arr []) = .arr (entries.map .obj))
    (shaped : ∀ entry ∈ entries, Shaped entry) :
    ((∃ merged, Merge.document locations (.obj fields) = .ok merged) ↔
        ∀ entry ∈ entries, Lookable entry) ∧
      ∀ merged, Merge.document locations (.obj fields) = .ok merged →
        ∃ (fields' : Fields) (entries' : List Fields), merged = .obj fields' ∧
          fields'.without ["timeline"] = fields.without ["timeline"] ∧
          fields'.get? "timeline" = some (.arr (entries'.map .obj)) ∧
          List.Forall₂ (EntryLocated locations) entries entries' := by
  constructor
  · calc (∃ merged, Merge.document locations (.obj fields) = .ok merged)
        ↔ ∃ items, (entries.map Json.obj).mapM (Merge.entry locations) = .ok items := by
          constructor
          · rintro ⟨_, document_ok⟩
            obtain ⟨_, same, _, listed, items, traversed, -⟩ := document_eq_ok.mp document_ok
            cases same
            rw [timeline] at listed
            cases listed
            exact ⟨items, traversed⟩
          · rintro ⟨items, traversed⟩
            refine ⟨_, document_eq_ok.mpr ⟨fields, rfl, _, ?_, items, traversed, rfl⟩⟩
            rw [timeline]
            rfl
      _ ↔ ∀ entry ∈ entries, Lookable entry := by
          rw [exists_mapM_ok, List.forall_mem_map]
          exact forall₂_congr fun entry member => (shaped entry member).entry_ok
  · intro merged document_ok
    obtain ⟨_, same, _, listed, items, traversed, rfl⟩ := document_eq_ok.mp document_ok
    cases same
    rw [timeline] at listed
    cases listed
    obtain ⟨entries', rfl, related⟩ :=
      forall₂_of_mapM_ok (fun _ _ _ entry_ok => entry_located entry_ok) traversed
    exact ⟨_, entries', rfl, Fields.without_set _ _ (by decide), Fields.get?_set_self _ _, related⟩

def mixedEntries : List Fields :=
  [[("function", .str "f"), ("note", .int 5),
      ("source_info", .obj [("file", .str "unknown/f.c"), ("column", .int 3)]),
      ("call_stack", .arr ([[("function", .str "g"), ("inlined", .bool true)],
        [("function", .str "f"), ("line", .int 1)]].map Json.obj))],
    [("func", .str "f"), ("line", .int 1), ("note", .null)]]

def mixedDocument : Fields :=
  [("release", .str "6.1"), ("timeline", .arr (mixedEntries.map .obj)), ("total", .int 2)]

def oneLocation : Locations :=
  [(.str "f",
    { Location.placeholder (.str "f") .unresolved with file := .str "net/f.c", line := 7 })]

theorem document_located_mixed :
    (mixedDocument.get? "timeline").getD (.arr []) = .arr (mixedEntries.map .obj) ∧
      (∀ entry ∈ mixedEntries, Shaped entry) ∧ (∀ entry ∈ mixedEntries, Lookable entry) ∧
      ∃ (fields' : Fields) (entries' : List Fields),
        Merge.document oneLocation (.obj mixedDocument) = .ok (.obj fields') ∧
          fields'.without ["timeline"] = [("release", .str "6.1"), ("total", .int 2)] ∧
          fields'.get? "timeline" = some (.arr (entries'.map .obj)) ∧
          List.Forall₂ (EntryLocated oneLocation) mixedEntries entries' := by
  have shaped : ∀ entry ∈ mixedEntries, Shaped entry := by
    refine List.forall_mem_cons.mpr ⟨⟨?_, ?_⟩, List.forall_mem_singleton.mpr ⟨?_, ?_⟩⟩
    · rintro _ ⟨⟩
      exact ⟨_, rfl⟩
    · rintro _ ⟨⟩
      exact ⟨_, rfl⟩
    · rintro _ ⟨⟩
    · rintro _ ⟨⟩
  have timeline : (mixedDocument.get? "timeline").getD (.arr []) =
      .arr (mixedEntries.map .obj) := rfl
  have document_ok : ∃ merged, Merge.document oneLocation (.obj mixedDocument) = .ok merged :=
    ⟨_, rfl⟩
  obtain ⟨succeeds, changes⟩ := document_located oneLocation timeline shaped
  have names := succeeds.mp document_ok
  obtain ⟨_, document_ok⟩ := document_ok
  obtain ⟨fields', entries', rfl, kept, located, related⟩ := changes _ document_ok
  exact ⟨timeline, shaped, names, fields', entries', document_ok, kept, located, related⟩

end CallTimeline.Merge
