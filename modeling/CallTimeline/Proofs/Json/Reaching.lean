import CallTimeline.Proofs.Json.Dialects
import CallTimeline.Proofs.Json.Streaming

/-!
# Streaming any text

A stream reads to the end of a part in which its target cannot be (`readsPast`). Over a list
it meets the items (`stream_list`), and over an object those of the lists with one name
(`stream_object`). Where it ends early, a reader of the same dialect does as well.
-/

namespace CallTimeline.Json

/-- Neither `path` nor a path inside it is the target. Unlike a path that is `Apart`, its last name
may begin as one of the target does. -/
def Misses (target path : String) : Prop :=
  path ≠ target ∧ ∀ rest, path ++ "." ++ rest ≠ target

theorem Misses.extend {target path : String} (misses : Misses target path) (name : String) :
    Misses target (path ++ "." ++ name) := by
  refine ⟨misses.2 name, fun rest => ?_⟩
  rw [String.append_assoc, String.append_assoc]
  exact misses.2 _

theorem misses_of_ne {name key : String} (plain : '.' ∉ name.toList) (plain' : '.' ∉ key.toList)
    (ne : key ≠ name) (rest : String) : Misses (name ++ "." ++ rest) key := by
  have toList (name rest : String) :
      (name ++ "." ++ rest).toList = name.toList ++ '.' :: rest.toList := by simp
  refine ⟨?_, fun behind same => ne ?_⟩
  · rintro rfl
    exact plain' (by simp)
  · -- Both names end before the first point.
    have cut (name rest : String) (plain : '.' ∉ name.toList) :
        (name ++ "." ++ rest).toList.takeWhile (· != '.') = name.toList := by
      rw [toList, List.takeWhile_append_of_pos]
      · simp
      · intro c member
        exact bne_iff_ne.mpr fun same => plain (same ▸ member)
    rw [← String.toList_inj, ← cut key behind plain', ← cut name rest plain, same]

section

variable {dialect : Dialect} {target : String}

theorem streamValue_target (fuel : Nat) (found : List Json) (text : List Char) :
    streamValue dialect target fuel (some target) found text =
      match readValue dialect fuel text with
      | .ok (value, rest) => (value :: found, .ok rest)
      | .error refusal => (found, .error refusal) := by
  cases fuel with
  | zero =>
      unfold streamValue readValue
      rfl
  | succ fuel => exact streamValue_here rfl

variable (dialect target) in
structure ReadsPast (fuel : Nat) : Prop where
  value : ∀ path found text, Misses target path →
    streamValue dialect target fuel (some path) found text =
      (found, (readValue dialect fuel text).map (·.2))
  items : ∀ path found text, Misses target path →
    streamItems dialect target fuel (some path) found text =
      (found, (itemsFrom dialect fuel text).map (·.2))
  fields : ∀ path found text, Misses target path →
    streamFields dialect target fuel (some path) found text =
      (found, (fieldsFrom dialect fuel text).map (·.2))

section

variable {fuel : Nat} (readsPast : ReadsPast dialect target fuel) {path : String}
  (found : List Json) (text : List Char) (misses : Misses target path)

include readsPast misses

theorem ReadsPast.value_succ :
    streamValue dialect target (fuel + 1) (some path) found text =
      (found, (readValue dialect (fuel + 1) text).map (·.2)) := by
  have elsewhere : some path ≠ some target := fun same => misses.1 (Option.some.inj same)
  cases text with
  | nil => exact streamValue_scalar elsewhere (by rintro _ ⟨⟩)
  | cons c tail =>
      obtain rfl | bracket := eq_or_ne c '['
      · by_cases closes : ∃ rest, tail.dropWhile dialect.isBlank = ']' :: rest
        · obtain ⟨rest, closes⟩ := closes
          rw [streamValue_list_closed elsewhere closes, readValue_bracket, listBody_closed closes]
          rfl
        · have goesOn := not_exists.mp closes
          rw [streamValue_list_open elsewhere rfl goesOn, readValue_bracket, listBody_open goesOn,
            extendPath, readsPast.items _ _ _ (misses.extend "item")]
          cases itemsFrom dialect fuel (tail.dropWhile dialect.isBlank) <;> rfl
      obtain rfl | brace := eq_or_ne c '\x7b'
      · by_cases closes : ∃ rest, tail.dropWhile dialect.isBlank = '\x7d' :: rest
        · obtain ⟨rest, closes⟩ := closes
          rw [streamValue_object_closed elsewhere closes, readValue_brace, objectBody_closed closes]
          rfl
        · have goesOn := not_exists.mp closes
          rw [streamValue_object_open elsewhere rfl goesOn, readValue_brace, objectBody_open goesOn,
            readsPast.fields _ _ _ misses]
          cases fieldsFrom dialect fuel (tail.dropWhile dialect.isBlank) <;> rfl
      · exact streamValue_scalar elsewhere (by simp [bracket, brace])

theorem ReadsPast.items_succ :
    streamItems dialect target (fuel + 1) (some path) found text =
      (found, (itemsFrom dialect (fuel + 1) text).map (·.2)) := by
  rw [streamItems, itemsFrom, readsPast.value path found text misses]
  cases readValue dialect fuel text with
  | error refusal => rfl
  | ok reading =>
      obtain ⟨value, rest⟩ := reading
      simp only [Except.map]
      generalize rest.dropWhile dialect.isBlank = behind
      split
      case h_1 tail =>
        simp only [readsPast.items path found _ misses]
        cases itemsFrom dialect fuel (tail.dropWhile dialect.isBlank) <;> rfl
      case h_2 => simp only
      case h_3 => simp [malformed]

theorem ReadsPast.fields_succ :
    streamFields dialect target (fuel + 1) (some path) found text =
      (found, (fieldsFrom dialect (fuel + 1) text).map (·.2)) := by
  rw [streamFields, fieldsFrom]
  cases readKey dialect text with
  | error refusal => rfl
  | ok name =>
      obtain ⟨key, rest⟩ := name
      simp only
      rw [extendPath, readsPast.value _ found rest (misses.extend key)]
      cases readValue dialect fuel rest with
      | error refusal => rfl
      | ok reading =>
          obtain ⟨value, rest⟩ := reading
          simp only [Except.map]
          generalize rest.dropWhile dialect.isBlank = behind
          split
          case h_1 tail =>
            simp only [readsPast.fields path found _ misses]
            cases fieldsFrom dialect fuel (tail.dropWhile dialect.isBlank) <;> rfl
          case h_2 => simp only
          case h_3 => simp [malformed]

end

theorem readsPast (fuel : Nat) : ReadsPast dialect target fuel := by
  induction fuel with
  | zero =>
      refine ⟨fun path found text _ => ?_, fun _ _ _ _ => rfl, fun _ _ _ _ => rfl⟩
      unfold streamValue readValue
      rfl
  | succ fuel ih =>
      exact ⟨fun _ found text misses => ih.value_succ found text misses,
        fun _ found text misses => ih.items_succ found text misses,
        fun _ found text misses => ih.fields_succ found text misses⟩

end

theorem Streams.cons {streamed : Streamed} {accepted : Except Number.Refusal Unit}
    {found values : List Json} {value : Json} {rest : Rest}
    (later : Streams streamed accepted (value :: found) values rest) :
    Streams streamed accepted found (value :: values) rest := by
  obtain ⟨ending, seen, met, initial, complete⟩ := later
  refine ⟨ending, value :: seen, ?_, (List.prefix_cons_inj value).mpr initial, fun accepts => ?_⟩
  · rw [met, List.reverse_cons, List.append_assoc, List.singleton_append]
  · rw [complete accepts]

def accepted {α : Type} (reading : Reading α) : Except Number.Refusal Unit :=
  reading.map fun _ => ()

theorem accepted_map {α β : Type} (f : α × Rest → β × Rest) (reading : Reading α) :
    accepted (reading.map f) = accepted reading := by
  cases reading <;> rfl

section

variable {strict loose : Dialect} (within : strict.Within loose) {target : String}

include within

theorem streams_itemsFrom {fuel : Nat} {text : List Char} {items : List Json} {rest : Rest}
    (found : List Json) (reads : itemsFrom loose fuel text = .ok (items, rest)) :
    Streams (streamItems strict target fuel (some target) found text)
      (accepted (itemsFrom strict fuel text)) found items rest := by
  induction fuel generalizing found text items with
  | zero => cases reads
  | succ fuel ih =>
      obtain ⟨value, behind, first, goesOn⟩ := itemsFrom_eq_ok.mp reads
      rw [streamItems, streamValue_target, itemsFrom]
      cases here : readValue strict fuel text with
      | error refusal => exact .refused _ _ _ _
      | ok reading =>
          obtain rfl := within.reading_eq here first
          simp only [within.isBlank]
          obtain ⟨closes, rfl⟩ | ⟨tail, more, comma, next, rfl⟩ := goesOn
          · simp only [closes]
            exact .all rfl
          · simp only [comma, accepted_map]
            exact (ih (value :: found) next).cons

theorem streams_list {path : Option String} {fuel : Nat} {text : List Char} {items : List Json}
    {rest : Rest} (found : List Json) (elsewhere : path ≠ some target)
    (leads : extendPath path "item" = some target)
    (reads : readValue loose fuel text = .ok (.arr items, rest)) :
    Streams (streamValue strict target fuel path found text)
      (accepted (readValue strict fuel text)) found items rest := by
  obtain ⟨steps, tail, rfl, rfl, inside⟩ := listBody_of_readValue reads
  rw [readValue_bracket, accepted_map]
  by_cases closes : ∃ behind, tail.dropWhile strict.isBlank = ']' :: behind
  · obtain ⟨behind, closes⟩ := closes
    rw [streamValue_list_closed elsewhere closes, listBody_closed closes]
    rw [within.isBlank] at closes
    rw [listBody_closed closes] at inside
    cases inside
    exact .all rfl
  · have goesOn := not_exists.mp closes
    rw [streamValue_list_open elsewhere rfl goesOn, leads, listBody_open goesOn]
    rw [within.isBlank] at goesOn ⊢
    rw [listBody_open goesOn] at inside
    exact streams_itemsFrom within found inside

section

variable {fuel : Nat} {text own behind rest tail : Rest} {key : String} {value : Json}
  (named : readKey strict text = .ok (key, own))
  (first : readValue loose fuel own = .ok (value, behind))

include named first

theorem accepted_fieldsFrom_last
    (closes : behind.dropWhile loose.isBlank = '\x7d' :: rest) :
    accepted (fieldsFrom strict (fuel + 1) text) =
      accepted (readValue strict fuel own) >>= fun _ => .ok () := by
  rw [fieldsFrom, named]
  simp only
  cases here : readValue strict fuel own with
  | error refusal => rfl
  | ok reading =>
      obtain rfl := within.reading_eq here first
      simp only [within.isBlank, closes]
      rfl

theorem accepted_fieldsFrom_next
    (comma : behind.dropWhile loose.isBlank = ',' :: tail) :
    accepted (fieldsFrom strict (fuel + 1) text) =
      accepted (readValue strict fuel own) >>= fun _ =>
        accepted (fieldsFrom strict fuel (tail.dropWhile loose.isBlank)) := by
  rw [fieldsFrom, named]
  simp only
  cases here : readValue strict fuel own with
  | error refusal => rfl
  | ok reading =>
      obtain rfl := within.reading_eq here first
      simp only [within.isBlank, comma, accepted_map]
      rfl

end

end

def itemsUnder (name : String) (field : String × Json) : List Json :=
  if field.1 = name then field.2.parts?.getD [] else []

structure PlainField (name : String) (field : String × Json) : Prop where
  key : '.' ∉ field.1.toList
  list : field.1 = name → ∃ items, field.2 = .arr items

section

variable {strict loose : Dialect} (within : strict.Within loose) {name : String}
  (plain : '.' ∉ name.toList)

include within plain

theorem streams_field {fuel : Nat} {text : List Char} {key : String} {value : Json} {rest : Rest}
    (found : List Json) (field : PlainField name (key, value))
    (reads : readValue loose fuel text = .ok (value, rest)) :
    Streams (streamValue strict (name ++ "." ++ "item") fuel (some key) found text)
      (accepted (readValue strict fuel text)) found (itemsUnder name (key, value)) rest := by
  by_cases same : key = name
  · obtain ⟨items, rfl⟩ := field.list same
    subst same
    rw [itemsUnder, if_pos rfl]
    refine streams_list within found (fun same => plain ?_) rfl reads
    rw [Option.some.inj same]
    simp
  · rw [(readsPast fuel).value _ _ _ (misses_of_ne plain field.key same "item"), itemsUnder,
      if_neg same]
    cases here : readValue strict fuel text with
    | error refusal => exact .refused _ _ _ _
    | ok reading =>
        obtain rfl := within.reading_eq here reads
        exact .all rfl

theorem streams_fieldsFrom {fuel : Nat} {text : List Char} {fields : Fields} {rest : Rest}
    (found : List Json) (fieldsPlain : ∀ field ∈ fields, PlainField name field)
    (reads : fieldsFrom loose fuel text = .ok (fields, rest)) :
    Streams (streamFields strict (name ++ "." ++ "item") fuel none found text)
      (accepted (fieldsFrom strict fuel text)) found (fields.flatMap (itemsUnder name)) rest := by
  induction fuel generalizing found text fields with
  | zero => cases reads
  | succ fuel ih =>
      obtain ⟨key, own, named, value, behind, first, goesOn⟩ := fieldsFrom_eq_ok.mp reads
      have here {more : Fields} (same : fields = (key, value) :: more) :=
        streams_field within plain found (fieldsPlain _ (same ▸ List.mem_cons_self)) first
      rw [← within.readKey] at named
      rw [streamFields, named]
      simp only [within.isBlank]
      obtain ⟨closes, rfl⟩ | ⟨tail, more, comma, next, rfl⟩ := goesOn
      · rw [accepted_fieldsFrom_last within named first closes, List.flatMap_cons]
        refine (here rfl).andThen (.all ?_)
        simp only [closes]
        rfl
      · have later (found : List Json) :=
          ih found (fun field member => fieldsPlain field (List.mem_cons_of_mem _ member)) next
        rw [accepted_fieldsFrom_next within named first comma, List.flatMap_cons]
        refine (here rfl).andThen ?_
        simp only [comma]
        exact later _

theorem streams_object {fuel : Nat} {text : List Char} {fields : Fields} {rest : Rest}
    (found : List Json) (fieldsPlain : ∀ field ∈ fields, PlainField name field)
    (reads : objectBody loose fuel text = .ok (fields, rest)) :
    Streams (streamValue strict (name ++ "." ++ "item") (fuel + 1) none found ('\x7b' :: text))
      (accepted (readValue strict (fuel + 1) ('\x7b' :: text))) found
      (fields.flatMap (itemsUnder name)) rest := by
  have elsewhere : none ≠ some (name ++ "." ++ "item") := by simp
  rw [readValue_brace, accepted_map]
  by_cases closes : ∃ behind, text.dropWhile strict.isBlank = '\x7d' :: behind
  · obtain ⟨behind, closes⟩ := closes
    rw [streamValue_object_closed elsewhere closes, objectBody_closed closes]
    rw [within.isBlank] at closes
    rw [objectBody_closed closes] at reads
    cases reads
    exact .all rfl
  · have goesOn := not_exists.mp closes
    rw [streamValue_object_open elsewhere rfl goesOn, objectBody_open goesOn]
    rw [within.isBlank] at goesOn ⊢
    rw [objectBody_open goesOn] at reads
    exact streams_fieldsFrom within plain found fieldsPlain reads

end

section

variable {strict loose : Dialect} (within : strict.Within loose) {text : List Char}

include within

theorem stream_list {items : List Json} (reads : read loose text = .ok (.arr items)) :
    Meets (stream strict "item" text) (accepted (readFirst strict text)) items := by
  obtain ⟨rest, first, blank⟩ := read_eq_ok.mp reads
  rw [← within.isBlank] at blank
  rw [readFirst, ← within.isBlank] at first
  have streams := @streams_list strict loose within "item" none _ _ _ _ [] (by simp) rfl first
  exact streams.meets blank

theorem stream_object {name : String} {fields : Fields} (plain : '.' ∉ name.toList)
    (fieldsPlain : ∀ field ∈ fields, PlainField name field)
    (written : writtenFields loose text = .ok fields) :
    Meets (stream strict (name ++ "." ++ "item") text) (accepted (readFirst strict text))
      (fields.flatMap (itemsUnder name)) := by
  obtain ⟨tail, rest, begins, inside, blank⟩ := writtenFields_eq_ok.mp written
  rw [← within.isBlank] at begins blank
  have streams := streams_object within plain [] fieldsPlain inside
  rw [← begins] at streams
  exact streams.meets blank

end

end CallTimeline.Json
