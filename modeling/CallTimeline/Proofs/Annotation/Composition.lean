import CallTimeline.Proofs.Annotation.Objects

namespace CallTimeline

open Source Json

/-- The newer location of every name that has one, and the older ones of the other names. -/
def Source.Locations.override (older newer : Locations) : Locations :=
  newer ++ older

namespace Merge

variable (older newer : Locations)

theorem find?_override (name : Json) :
    (older.override newer).find? name = (newer.find? name).or (older.find? name) := by
  rw [Locations.find?, Locations.override, List.find?_append, Option.map_or]
  rfl

theorem frame_override (value merged : Json) :
    Merge.frame older value >>= Merge.frame newer = .ok merged ↔
      Merge.frame (older.override newer) value = .ok merged := by
  have name (location : Option Location) (fields : Fields) :
      frameName (placed location fields) = frameName fields := by
    rw [frameName, placed_get? _ _ (by decide) (by decide), frameName]
  rw [bind_eq_ok]
  constructor
  · rintro ⟨between, first, second⟩
    obtain ⟨fields, rfl, checked, rfl⟩ := frame_eq_ok.mp first
    obtain ⟨_, same, -, rfl⟩ := frame_eq_ok.mp second
    cases same
    refine frame_eq_ok.mpr ⟨fields, rfl, checked, ?_⟩
    rw [name, placed_or, find?_override]
  · intro both
    obtain ⟨fields, rfl, checked, rfl⟩ := frame_eq_ok.mp both
    refine ⟨_, frame_eq_ok.mpr ⟨fields, rfl, checked, rfl⟩, frame_eq_ok.mpr ⟨_, rfl, ?_, ?_⟩⟩
    · rwa [name]
    · rw [name, placed_or, find?_override]

theorem frames_override (stack located : Json) :
    frames older stack >>= frames newer = .ok located ↔
      frames (older.override newer) stack = .ok located := by
  have each := mapM_bind_mapM (frame_override older newer)
  simp only [bind_eq_ok] at each
  simp only [bind_eq_ok, frames_eq_ok, ← each]
  constructor
  · rintro ⟨_, ⟨parts, parts_eq, between, first, rfl⟩, _, same, items, second, rfl⟩
    cases same
    exact ⟨parts, parts_eq, items, ⟨between, first, second⟩, rfl⟩
  · rintro ⟨parts, parts_eq, items, ⟨between, first, second⟩, rfl⟩
    exact ⟨_, ⟨parts, parts_eq, between, first, rfl⟩, between, rfl, items, second, rfl⟩

theorem ownLevel_or (older newer : Option Location) (fields : Fields) :
    ownLevel older fields >>= ownLevel newer = ownLevel (newer.or older) fields := by
  cases source : fields.get? "source_info" with
  | none =>
      have kept : (placed older fields).get? "source_info" = none := by
        rw [placed_get? _ _ (by decide) (by decide), source]
      rw [ownLevel, source, ownLevel, source]
      change ownLevel newer (placed older fields) = _
      rw [ownLevel, kept, placed_or]
  | some info =>
      cases older with
      | none =>
          rw [Option.or_none, ownLevel, source]
          rfl
      | some older =>
          have both : ∃ location, newer.or (some older) = some location ∧
              ∀ table, placed newer (place older table) = place location table := by
            cases newer with
            | none => exact ⟨older, rfl, fun _ => rfl⟩
            | some newer => exact ⟨newer, rfl, fun table => place_place table older newer⟩
          obtain ⟨location, or_eq, together⟩ := both
          rw [or_eq, ownLevel, source, ownLevel, source]
          dsimp only
          cases info.table with
          | error fault => rfl
          | ok table =>
              change ownLevel newer (fields.set "source_info" (.obj (place older table))) =
                .ok (fields.set "source_info" (.obj (place location table)))
              rw [ownLevel, Fields.get?_set_self, ← together]
              cases newer with
              | none => rfl
              | some newer => exact congrArg Except.ok (Fields.set_set _ _ _)

theorem ownLevel_set (location : Option Location) {fields : Fields} {key : String} (value : Json)
    (file : key ≠ "file") (line : key ≠ "line") (source : key ≠ "source_info")
    (present : (fields.get? key).isSome) :
    ownLevel location (fields.set key value) =
      (ownLevel location fields).map fun own => own.set key value := by
  rw [ownLevel, ownLevel, Fields.get?_set_of_ne _ _ source.symm]
  cases fields.get? "source_info" with
  | none => exact congrArg Except.ok (placed_set location fields value file line present)
  | some info =>
      cases location with
      | none => rfl
      | some location =>
          dsimp only
          cases info.table with
          | error fault => rfl
          | ok table => exact congrArg Except.ok (Fields.set_comm fields _ _ source present)

theorem ownLevel_withFrames (location : Option Location) (own merged : Fields) :
    withFrames older own >>= ownLevel location = .ok merged ↔
      ownLevel location own >>= withFrames older = .ok merged := by
  simp only [bind_eq_ok, withFrames_eq_ok]
  constructor
  · rintro ⟨whole, ⟨absent, rfl⟩ | ⟨stack, present, located, frames_ok, rfl⟩, level_ok⟩
    · exact ⟨merged, level_ok, .inl ⟨(ownLevel_stack level_ok).trans absent, rfl⟩⟩
    · rw [ownLevel_set location located (by decide) (by decide) (by decide)
        (Option.isSome_of_eq_some present)] at level_ok
      obtain ⟨leveled, leveled_eq, rfl⟩ := of_map_ok level_ok
      exact ⟨leveled, leveled_eq,
        .inr ⟨stack, (ownLevel_stack leveled_eq).trans present, located, frames_ok, rfl⟩⟩
  · rintro ⟨leveled, level_ok, ⟨absent, rfl⟩ | ⟨stack, present, located, frames_ok, rfl⟩⟩
    · exact ⟨own, .inl ⟨(ownLevel_stack level_ok).symm.trans absent, rfl⟩, level_ok⟩
    · have present := (ownLevel_stack level_ok).symm.trans present
      refine ⟨_, .inr ⟨stack, present, located, frames_ok, rfl⟩, ?_⟩
      rw [ownLevel_set location located (by decide) (by decide) (by decide)
        (Option.isSome_of_eq_some present), level_ok]
      rfl

theorem withFrames_override (own merged : Fields) :
    withFrames older own >>= withFrames newer = .ok merged ↔
      withFrames (older.override newer) own = .ok merged := by
  simp only [bind_eq_ok, withFrames_eq_ok, ← frames_override]
  constructor
  · rintro ⟨_, ⟨absent, rfl⟩ | ⟨stack, present, between, first, rfl⟩, second⟩
    · exact .inl (second.resolve_right fun ⟨_, present, _⟩ => nomatch absent.symm.trans present)
    · obtain ⟨absent, -⟩ | ⟨_, same, located, second, rfl⟩ := second
      · simp at absent
      · obtain rfl : between = _ := by simpa using same
        exact .inr ⟨stack, present, located, ⟨between, first, second⟩, Fields.set_set _ _ _⟩
  · rintro (⟨absent, rfl⟩ | ⟨stack, present, located, ⟨between, first, second⟩, rfl⟩)
    · exact ⟨merged, .inl ⟨absent, rfl⟩, .inl ⟨absent, rfl⟩⟩
    · refine ⟨_, .inr ⟨stack, present, between, first, rfl⟩, .inr ⟨between, ?_, located, second, ?_⟩⟩
      · exact Fields.get?_set_self _ _
      · exact (Fields.set_set _ _ _).symm

theorem nameOf_eq {fields fields' : Fields}
    (function : fields'.get? "function" = fields.get? "function")
    (func : fields'.get? "func" = fields.get? "func") : nameOf fields' = nameOf fields := by
  rw [nameOf, nameOf, function, func]

theorem nameOf_merged {location : Option Location} {fields own whole : Fields}
    (level_ok : ownLevel location fields = .ok own)
    (frames_ok : withFrames older own = .ok whole) : nameOf whole = nameOf fields := by
  have kept {key : String} (file : key ≠ "file") (line : key ≠ "line")
      (source : key ≠ "source_info") (stack : key ≠ "call_stack") :
      whole.get? key = fields.get? key :=
    (withFrames_get? frames_ok stack).trans (ownLevel_get? level_ok file line source)
  exact nameOf_eq (kept (by decide) (by decide) (by decide) (by decide))
    (kept (by decide) (by decide) (by decide) (by decide))

theorem steps_override (first second : Option Location) (fields whole : Fields) :
    (∃ own, ownLevel first fields = .ok own ∧ ∃ between, withFrames older own = .ok between ∧
      ∃ level, ownLevel second between = .ok level ∧ withFrames newer level = .ok whole) ↔
    ∃ own, ownLevel (second.or first) fields = .ok own ∧
      withFrames (older.override newer) own = .ok whole := by
  simp only [← ownLevel_or, ← withFrames_override, bind_eq_ok]
  have exchange := ownLevel_withFrames older second
  simp only [bind_eq_ok] at exchange
  constructor
  · rintro ⟨own, own_ok, between, framed, level, level_ok, last⟩
    obtain ⟨leveled, leveled_ok, framed⟩ := (exchange own level).mp ⟨between, framed, level_ok⟩
    exact ⟨leveled, ⟨own, own_ok, leveled_ok⟩, level, framed, last⟩
  · rintro ⟨leveled, ⟨own, own_ok, leveled_ok⟩, level, framed, last⟩
    obtain ⟨between, framed, level_ok⟩ := (exchange own level).mpr ⟨leveled, leveled_ok, framed⟩
    exact ⟨own, own_ok, between, framed, level, level_ok, last⟩

theorem entry_override (value merged : Json) :
    Merge.entry older value >>= Merge.entry newer = .ok merged ↔
      Merge.entry (older.override newer) value = .ok merged := by
  rw [bind_eq_ok]
  constructor
  · rintro ⟨_, first, second⟩
    obtain ⟨fields, rfl, checked, own, own_ok, between, framed, rfl⟩ := entry_eq_ok.mp first
    obtain ⟨_, same, -, level, level_ok, whole, last, rfl⟩ := entry_eq_ok.mp second
    cases same
    rw [nameOf_merged older own_ok framed] at level_ok
    obtain ⟨leveled, or_ok, both⟩ := (steps_override older newer _ _ fields whole).mp
      ⟨own, own_ok, between, framed, level, level_ok, last⟩
    rw [← find?_override] at or_ok
    exact entry_eq_ok.mpr ⟨fields, rfl, checked, leveled, or_ok, whole, both, rfl⟩
  · intro both
    obtain ⟨fields, rfl, checked, leveled, or_ok, whole, framed, rfl⟩ := entry_eq_ok.mp both
    rw [find?_override] at or_ok
    obtain ⟨own, own_ok, between, framed, level, level_ok, last⟩ :=
      (steps_override older newer _ _ fields whole).mpr ⟨leveled, or_ok, framed⟩
    have name := nameOf_merged older own_ok framed
    refine ⟨_, entry_eq_ok.mpr ⟨fields, rfl, checked, own, own_ok, between, framed, rfl⟩,
      entry_eq_ok.mpr ⟨between, rfl, ?_, level, ?_, whole, last, rfl⟩⟩
    · rwa [name]
    · rwa [name]

theorem document_override_ok (value merged : Json) :
    Merge.document older value >>= Merge.document newer = .ok merged ↔
      Merge.document (older.override newer) value = .ok merged := by
  have each := mapM_bind_mapM (entry_override older newer)
  simp only [bind_eq_ok] at each
  simp only [bind_eq_ok, document_eq_ok, ← each]
  constructor
  · rintro ⟨_, ⟨fields, rfl, items, items_eq, between, first, rfl⟩,
      _, same, _, list, entries, second, rfl⟩
    cases same
    obtain rfl : between = _ := by simpa [Json.parts, Json.parts?] using list
    exact ⟨fields, rfl, items, items_eq, entries, ⟨between, first, second⟩,
      congrArg Json.obj (Fields.set_set _ _ _)⟩
  · rintro ⟨fields, rfl, items, items_eq, entries, ⟨between, first, second⟩, rfl⟩
    refine ⟨_, ⟨fields, rfl, items, items_eq, between, first, rfl⟩,
      _, rfl, between, ?_, entries, second, ?_⟩
    · rw [Fields.get?_set_self]
      rfl
    · rw [Fields.set_set]

section

variable {a b : Locations} (same : ∀ name, a.find? name = b.find? name)

include same

theorem frame_congr (value : Json) : Merge.frame a value = Merge.frame b value := by
  simp only [Merge.frame, Locations.lookup, same]

theorem entry_congr (value : Json) : Merge.entry a value = Merge.entry b value := by
  simp only [Merge.entry, level, Locations.lookup, same, funext (frame_congr same)]

theorem document_congr (value : Json) : Merge.document a value = Merge.document b value := by
  simp only [Merge.document, funext (entry_congr same)]

end

theorem find?_override_self (name : Json) :
    (older.override older).find? name = older.find? name := by
  rw [find?_override]
  cases older.find? name <;> rfl

/-- Merging locations into any value and newer ones into the result gives what merging them together
gives, and fails just if this does. A second merge of the same locations changes nothing. -/
theorem document_override (value : Json) :
    (∀ merged, Merge.document older value >>= Merge.document newer = .ok merged ↔
        Merge.document (older.override newer) value = .ok merged) ∧
      Merge.document older value >>= Merge.document older = Merge.document older value := by
  refine ⟨document_override_ok older newer value, ?_⟩
  cases once : Merge.document older value with
  | error fault => rfl
  | ok merged =>
      have twice : Merge.document (older.override older) value = .ok merged :=
        (document_congr (find?_override_self older) value).trans once
      exact once ▸ (document_override_ok older older value merged).mpr twice

end Merge

end CallTimeline
