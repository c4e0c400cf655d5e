import CallTimeline.Proofs.Annotation.Records
import CallTimeline.Proofs.Json.Names
import CallTimeline.Proofs.Json.Streaming
import CallTimeline.Proofs.Text.Utf8
import CallTimeline.Proofs.Timeline.Entries
import CallTimeline.Timeline.Document

namespace CallTimeline

open Json

namespace Document

theorem textOf_encode (text : String) : textOf (Text.Utf8.encode text) = text.toList := by
  rw [textOf, Text.Utf8.decode_encode, List.map_map]
  exact List.map_id _

section

variable (fields : Fields)

theorem isListText_indented : isListText (indented (obj fields)).toList = false := by
  rw [indented_eq, toList_append, String.toList_empty, List.nil_append]
  cases fields with
  | nil => rfl
  | cons field fields =>
      obtain ⟨key, value⟩ := field
      rw [chars, isListText, List.dropWhile_cons, skipped_narrow.isBlank_of_printed (by decide)]
      rfl

variable {fields} (distinct : (obj fields).Distinct)

include distinct

theorem meets_indented :
    let text := (indented (obj fields)).toList
    Meets (stream .narrow (entriesPath text) text) (accept .narrow (obj fields))
      (valuesAt "timeline.item" none (obj fields)) := by
  intro text
  rw [entriesPath, isListText_indented, if_neg Bool.false_ne_true]
  exact stream_append skipped_narrow "timeline.item" distinct

theorem load_indented (path : String) (metadata : fields.has "metadata" = true)
    (timeline : fields.has "timeline" = true) :
    load path (indented (obj fields)).toList =
      ((accept .narrow (obj fields)).mapError fun _ => .notJson).map fun _ => obj fields := by
  rw [load, isListText_indented, if_neg Bool.false_ne_true, indented_eq,
    readFirst_append skipped_narrow distinct]
  cases accept .narrow (obj fields) with
  | error refusal => rfl
  | ok => simp [Except.map, Except.mapError, metadata, timeline]

end

def NamesWell (fields : Fields) : Prop :=
  (Merge.nameOf fields).isTruthy = true → (Merge.nameOf fields).checkName = .ok ()

def namesOf (records : List Fields) : List Json :=
  (records.map Merge.nameOf).filter isTruthy

theorem addName_obj {fields : Fields} (well : NamesWell fields) (names : List Json) :
    addName names (.obj fields) = .ok ((namesOf [fields]).foldl addDistinct names) := by
  change (if (Merge.nameOf fields).isTruthy then
      (Merge.nameOf fields).checkName >>= fun _ => pure (addDistinct names (Merge.nameOf fields))
    else pure names) = _
  rw [namesOf, List.map_singleton, List.filter_singleton]
  cases truthy : (Merge.nameOf fields).isTruthy with
  | true =>
      rw [if_pos rfl, well truthy]
      rfl
  | false => rfl

theorem foldlM_addName {records : List Fields} (well : ∀ fields ∈ records, NamesWell fields)
    (seen : List Json) :
    (records.map .obj).foldlM addName seen = .ok ((namesOf records).foldl addDistinct seen) := by
  induction records generalizing seen with
  | nil => rfl
  | cons fields records ih =>
      have split : namesOf (fields :: records) = namesOf [fields] ++ namesOf records := by
        rw [namesOf, namesOf, namesOf, ← List.filter_append]
        rfl
      rw [List.map_cons, List.foldlM_cons, addName_obj (well fields List.mem_cons_self), split,
        List.foldl_append]
      exact ih (fun other member => well other (List.mem_cons_of_mem _ member)) _

theorem namesWell_record {entry : Entry} (name : entry.function.IsName) :
    NamesWell entry.record := by
  rw [NamesWell, Merge.nameOf_record name]
  exact fun _ => name.checked

theorem namesOf_record {entries : List Entry} (names : ∀ entry ∈ entries, entry.function.IsName) :
    namesOf (entries.map Entry.record) = entries.map (·.function) := by
  have same : (entries.map Entry.record).map Merge.nameOf = entries.map (·.function) := by
    rw [List.map_map]
    exact List.map_congr_left fun entry member => Merge.nameOf_record (names entry member)
  rw [namesOf, same]
  exact List.filter_eq_self.mpr (List.forall_mem_map.mpr fun entry member =>
    (names entry member).nonempty)

section

variable {text : List Char} {accepted : Except Number.Refusal Unit}

theorem allEntries_of_meets {values : List Json}
    (meets : Meets (stream .narrow (entriesPath text) text) accepted values) :
    allEntries text = (accepted.mapError fun _ => .notJson).map fun _ => values := by
  rw [allEntries, entries]
  generalize stream .narrow (entriesPath text) text = streamed at meets ⊢
  obtain ⟨met, ending⟩ := streamed
  obtain ⟨rfl : ending = _, -, complete⟩ := meets
  cases accepted with
  | error refusal => rfl
  | ok => exact congrArg Except.ok (complete rfl)

theorem functionNames_of_meets {records : List Fields}
    (meets : Meets (stream .narrow (entriesPath text) text) accepted (records.map .obj))
    (well : ∀ fields ∈ records, NamesWell fields) :
    functionNames text =
      (accepted.mapError fun _ => .notJson).map fun _ => distinctNames (namesOf records) := by
  rw [functionNames, entries]
  generalize stream .narrow (entriesPath text) text = streamed at meets ⊢
  obtain ⟨met, ending⟩ := streamed
  obtain ⟨rfl : ending = _, initial, complete⟩ := meets
  -- The entries before a refusal have names as well.
  obtain ⟨k, rfl⟩ : ∃ k, met = (records.take k).map .obj :=
    ⟨met.length, by rw [List.map_take]; exact List.prefix_iff_eq_take.mp initial⟩
  simp only
  rw [foldlM_addName fun fields member => well fields (List.mem_of_mem_take member)]
  cases accepted with
  | error refusal => rfl
  | ok =>
      have whole : records.take k = records := by
        refine List.take_of_length_le ?_
        have lengths := congrArg List.length (complete rfl)
        simp only [List.length_map, List.length_take] at lengths
        omega
      rw [whole]
      rfl

end

theorem pairwise_foldlM_addName {entries seen names : List Json}
    (distinct : seen.Pairwise fun name earlier => name.sameName earlier = false)
    (h : entries.foldlM addName seen = .ok names) :
    names.Pairwise fun name earlier => name.sameName earlier = false := by
  induction entries generalizing seen with
  | nil =>
      cases h
      exact distinct
  | cons entry entries ih =>
      rw [List.foldlM_cons] at h
      obtain ⟨next, added, h⟩ := of_bind_ok h
      refine ih ?_ h
      obtain ⟨fields, -, added⟩ := of_bind_ok added
      dsimp only at added
      split at added
      case isTrue =>
        obtain ⟨_, -, added⟩ := of_bind_ok added
        cases added
        exact pairwise_foldl_addDistinct [Merge.nameOf fields] distinct
      case isFalse =>
        cases added
        exact distinct

theorem distinctNames_functionNames {text : List Char} {names : List Json}
    (h : functionNames text = .ok names) : distinctNames names = names := by
  unfold functionNames at h
  split at h
  case h_1 found fault _ =>
    obtain ⟨collected, folded, h⟩ := of_bind_ok h
    cases fault with
    | some fault => cases h
    | none =>
        cases h
        rw [distinctNames_eq, foldl_addDistinct_reverse (pairwise_foldlM_addName .nil folded)]

end Document

namespace Timeline

open Trace

variable {timeline : Timeline}

theorem valuesAt_toJson (now : String) (metadata : Fields) :
    valuesAt "timeline.item" none (timeline.toJson now metadata) =
      timeline.entries.map Entry.toJson := by
  have apart {path : String} (known : path ∈ ["metadata", "summary", "status"]) :
      Apart "timeline.item" path := by
    refine apart_of_head? ?_
    revert path
    simp
  rw [toJson, valuesAt_elsewhere (by decide)]
  simp only [fieldsAt, extendPath]
  rw [valuesAt_of_apart (apart (by decide)), valuesAt_of_apart (apart (by decide)),
    valuesAt_of_apart (apart (by decide)), valuesAt_elsewhere (by decide)]
  exact (List.append_nil _).trans (itemsAt_target _ _)

theorem distinct_entryAt (settings : Settings) (step : Nat) (event : Event) (flow : Direction) :
    (entryAt settings step event flow).toJson.Distinct := by
  have frames : DistinctItems (event.stack.map (Frame.toJson ∘ Frame.map .str)) := by
    refine distinctItems_iff.mpr fun item member => ?_
    obtain ⟨frame, -, rfl⟩ := List.mem_map.mp member
    simp [Frame.toJson, Frame.map, Distinct, DistinctFields]
  simp [entryAt, Entry.toJson, Buffer.toJson, Buffer.atStep, Distinct, DistinctFields, frames]

def ownMetadata (now : String) : Fields :=
  [("kernel_version", .str "unknown"), ("generated_at", .str now), ("tool_version", .str toolVersion)]

section

variable (now : String) {metadata : Fields} (texts : ∀ field ∈ metadata, field.2.IsText)

include texts

theorem isText_metadata : ∀ field ∈ (ownMetadata now).update metadata, field.2.IsText := by
  have own : ∀ field ∈ ownMetadata now, field.2.IsText := by simp [ownMetadata, IsText]
  intro field member
  exact (Fields.mem_of_mem_update member).elim (own field) (texts field)

variable {settings : Settings} {replay : Replay}

theorem distinct_toJson : ((ofReplay settings replay).toJson now metadata).Distinct := by
  have entries : DistinctItems ((ofReplay settings replay).entries.map Entry.toJson) := by
    refine distinctItems_iff.mpr fun item member => ?_
    obtain ⟨entry, among, rfl⟩ := List.mem_map.mp member
    obtain ⟨step, event, flow, rfl⟩ := exists_entryAt settings among
    exact distinct_entryAt settings step event flow
  have held : DistinctFields ((ownMetadata now).update metadata) := by
    refine distinctFields_iff.mpr fun field member => ?_
    obtain ⟨text, same⟩ := isText_metadata now texts field member
    rw [same]
    trivial
  have names : (((ownMetadata now).update metadata).map (·.1)).Nodup :=
    Fields.nodup_update (by simp [ownMetadata]) metadata
  rw [ownMetadata] at held names
  simp [toJson, Distinct, DistinctFields, held, names, entries, Summary.fields]

end

section

variable {settings : Settings} {lines : List (List Char)} {replay : Replay} (now : String)
  {metadata : Fields} (run : Replay.run settings lines = .ok replay)
  (named : ∀ event ∈ replay.events.toList, event.function ≠ "")
  (texts : ∀ field ∈ metadata, field.2.IsText)

include run named in
theorem isName_of_run :
    ∀ entry ∈ (ofReplay settings replay).entries, entry.function.IsName := by
  intro entry member
  obtain ⟨event, among, function, -⟩ := exists_event settings (Replay.numbered_of_run run) member
  rw [function]
  exact isName_str (named event among)

include texts

theorem load_toJson (path : String) :
    Document.load path ((ofReplay settings replay).toJson now metadata).indented.toList =
      ((accept .narrow ((ofReplay settings replay).toJson now metadata)).mapError fun _ =>
        .notJson).map fun _ => (ofReplay settings replay).toJson now metadata :=
  Document.load_indented (distinct_toJson now texts) path rfl rfl

theorem meets_toJson :
    let text := ((ofReplay settings replay).toJson now metadata).indented.toList
    Meets (stream .narrow (Document.entriesPath text) text)
      (accept .narrow ((ofReplay settings replay).toJson now metadata))
      ((ofReplay settings replay).entries.map Entry.toJson) := by
  rw [← valuesAt_toJson now metadata]
  exact Document.meets_indented (distinct_toJson now texts)

theorem allEntries_toJson :
    Document.allEntries ((ofReplay settings replay).toJson now metadata).indented.toList =
      ((accept .narrow ((ofReplay settings replay).toJson now metadata)).mapError fun _ =>
        .notJson).map fun _ => (ofReplay settings replay).entries.map Entry.toJson :=
  Document.allEntries_of_meets (meets_toJson now texts)

include run named

theorem functionNames_toJson :
    Document.functionNames ((ofReplay settings replay).toJson now metadata).indented.toList =
      ((accept .narrow ((ofReplay settings replay).toJson now metadata)).mapError fun _ =>
        .notJson).map fun _ => (ofReplay settings replay).functions := by
  have names := isName_of_run run named
  have meets := @meets_toJson settings replay now metadata texts
  have records : (ofReplay settings replay).entries.map Entry.toJson =
      ((ofReplay settings replay).entries.map Entry.record).map .obj := by
    rw [List.map_map]
    rfl
  rw [records] at meets
  refine (Document.functionNames_of_meets meets ?_).trans ?_
  · exact List.forall_mem_map.mpr fun entry member => Document.namesWell_record (names entry member)
  · rw [Document.namesOf_record names]
    rfl

end

end Timeline

end CallTimeline
