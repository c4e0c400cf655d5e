import CallTimeline.Proofs.Json.Reaching
import CallTimeline.Proofs.Timeline.Document

namespace CallTimeline.Document

open Json

/-- A text that is a list of entries, or an object whose timeline is one. The object has no field
twice and no point in the name of a field. Its numbers may be of any size. -/
inductive HoldsTimeline (text : List Char) (entries : List Fields) : Prop where
  | list (reads : read .unbounded text = .ok (.arr (entries.map .obj)))
  | document (fields : Fields) (written : writtenFields .unbounded text = .ok fields)
      (distinct : (fields.map (·.1)).Nodup) (plain : ∀ field ∈ fields, '.' ∉ field.1.toList)
      (timeline : fields.get? "timeline" = some (.arr (entries.map .obj)))

section

variable {fields : Fields} (distinct : (fields.map (·.1)).Nodup) {name : String}
  {items : List Json} (held : fields.get? name = some (.arr items))

include distinct held

theorem plainField_of_mem (plain : ∀ field ∈ fields, '.' ∉ field.1.toList)
    {field : String × Json} (member : field ∈ fields) : PlainField name field where
  key := plain field member
  list := by
    rintro rfl
    exact ⟨items, Option.some.inj ((Fields.get?_of_mem distinct member).symm.trans held)⟩

theorem flatMap_itemsUnder : fields.flatMap (itemsUnder name) = items := by
  induction fields with
  | nil => cases held
  | cons field fields ih =>
      rw [List.map_cons, List.nodup_cons] at distinct
      rw [Fields.get?_cons] at held
      rw [List.flatMap_cons]
      split at held
      case isTrue same =>
        have others : fields.flatMap (itemsUnder name) = [] := by
          refine List.flatMap_eq_nil_iff.mpr fun other member => if_neg fun same' => ?_
          rw [same, ← same'] at distinct
          exact distinct.1 (List.mem_map_of_mem member)
        rw [others, itemsUnder, if_pos same, Option.some.inj held, List.append_nil]
        rfl
      case isFalse ne =>
        rw [itemsUnder, if_neg ne, List.nil_append]
        exact ih distinct.2 held

end

theorem isListText_cons {text tail : List Char} {c : Char}
    (begins : text.dropWhile Dialect.narrow.isBlank = c :: tail) :
    isListText text = (c == '[') := by
  rw [isListText, begins]
  rfl

theorem isListText_of_read {text : List Char} {items : List Json}
    (reads : read .unbounded text = .ok (.arr items)) : isListText text = true := by
  obtain ⟨rest, first, -⟩ := read_eq_ok.mp reads
  obtain ⟨steps, tail, -, begins, -⟩ := listBody_of_readValue first
  exact isListText_cons begins

theorem isListText_of_written {text : List Char} {fields : Fields}
    (written : writtenFields .unbounded text = .ok fields) : isListText text = false := by
  obtain ⟨tail, rest, begins, -⟩ := writtenFields_eq_ok.mp written
  exact isListText_cons begins

namespace HoldsTimeline

variable {text : List Char} {entries : List Fields} (holds : HoldsTimeline text entries)

include holds

theorem meets :
    Meets (stream .narrow (entriesPath text) text) (accepted (readFirst .narrow text))
      (entries.map .obj) := by
  cases holds with
  | list reads =>
      rw [entriesPath, isListText_of_read reads]
      exact stream_list narrow_within_unbounded reads
  | document fields written distinct plain timeline =>
      have meets := stream_object narrow_within_unbounded (by decide)
        (fun field member => plainField_of_mem distinct timeline plain member) written
      rw [flatMap_itemsUnder distinct timeline] at meets
      rw [entriesPath, isListText_of_written written]
      exact meets

theorem allEntries_eq :
    allEntries text = ((accepted (readFirst .narrow text)).mapError fun _ => .notJson).map fun _ =>
      entries.map .obj :=
  allEntries_of_meets holds.meets

theorem exists_load :
    ∃ fields : Fields, fields.get? "timeline" = some (.arr (entries.map .obj)) ∧
      ∀ path, load path text =
        ((accepted (readFirst .narrow text)).mapError fun _ => .notJson).map fun _ =>
          .obj fields := by
  have entries_eq := holds.allEntries_eq
  cases holds with
  | list reads =>
      refine ⟨[("metadata", .obj []), ("timeline", .arr (entries.map .obj))], rfl, fun path => ?_⟩
      rw [load, isListText_of_read reads, if_pos rfl, entries_eq]
      cases accepted (readFirst .narrow text) <;> rfl
  | document fields written distinct plain timeline =>
      let complete := if fields.has "metadata" then fields else fields.set "metadata" (.obj [])
      have timeline' : complete.get? "timeline" = some (.arr (entries.map .obj)) := by
        unfold complete
        split
        · exact timeline
        · rw [Fields.get?_set_of_ne _ _ (by decide), timeline]
      refine ⟨complete, timeline', fun path => ?_⟩
      have whole := read_eq_obj.mpr ⟨fields, written, rfl⟩
      rw [Fields.ofPairs_of_nodup distinct] at whole
      obtain ⟨rest, first, -⟩ := read_eq_ok.mp whole
      rw [load, isListText_of_written written, if_neg Bool.false_ne_true]
      cases here : readFirst .narrow text with
      | error refusal => rfl
      | ok reading =>
          obtain rfl := narrow_within_unbounded.reading_eq here first
          have has : complete.has "timeline" = true := by
            rw [Fields.has]
            exact congrArg Option.isSome timeline'
          exact congrArg (fun fields => Except.ok (obj fields)) (if_pos has)

theorem allEntries_eq_load (path : String) :
    (allEntries text).map .arr = load path text >>= (·.field "timeline") := by
  obtain ⟨fields, timeline, loads⟩ := holds.exists_load
  rw [loads, holds.allEntries_eq]
  cases accepted (readFirst .narrow text) with
  | error refusal => rfl
  | ok =>
      rw [Fields.get?] at timeline
      change .ok (.arr (entries.map .obj)) = (Json.obj fields).field "timeline"
      simp only [Json.field, timeline]

theorem functionNames_eq (well : ∀ fields ∈ entries, NamesWell fields) :
    functionNames text =
      ((accepted (readFirst .narrow text)).mapError fun _ => .notJson).map fun _ =>
        distinctNames (namesOf entries) :=
  functionNames_of_meets holds.meets well

end HoldsTimeline

end CallTimeline.Document
