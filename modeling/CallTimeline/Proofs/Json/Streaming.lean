import CallTimeline.Json.Stream
import CallTimeline.Proofs.Json.RoundTrip

/-!
# Streaming what was written

A stream over a written value meets the values at its path (`valuesAt`) in their order. It comes to
the end of the text unless the dialect refuses a number (`stream_append`): where it looks does not
change what it accepts.
-/

namespace CallTimeline.Json

section

variable (target : String)

mutual

/-- The values at a path in reading order. -/
def valuesAt (path : Option String) (value : Json) : List Json :=
  if path == some target then [value]
  else
    match value with
    | arr items => itemsAt (extendPath path "item") items
    | obj fields => fieldsAt path fields
    | _ => []

def itemsAt (path : Option String) : List Json → List Json
  | [] => []
  | item :: items => valuesAt path item ++ itemsAt path items

def fieldsAt (path : Option String) : List (String × Json) → List Json
  | [] => []
  | (key, value) :: fields => valuesAt (extendPath path key) value ++ fieldsAt path fields

end

end

theorem itemsAt_target (target : String) (items : List Json) :
    itemsAt target (some target) items = items := by
  induction items with
  | nil => rfl
  | cons item items ih =>
      rw [itemsAt, ih, valuesAt.eq_def, if_pos (beq_iff_eq.mpr rfl), List.singleton_append]

def Apart (target path : String) : Prop :=
  ∀ rest, path ++ rest ≠ target

theorem apart_of_head? {target path : String}
    (differ : ∃ c ∈ path.toList.head?, target.toList.head? ≠ some c) : Apart target path := by
  rintro rest rfl
  obtain ⟨c, first, ne⟩ := differ
  obtain ⟨others, split⟩ := List.head?_eq_some_iff.mp first
  rw [String.toList_append, split] at ne
  exact ne rfl

theorem Apart.extend {target path : String} (apart : Apart target path) (name : String) :
    Apart target (path ++ "." ++ name) := fun rest => by
  rw [String.append_assoc, String.append_assoc]
  exact apart _

mutual

theorem valuesAt_of_apart {target path : String} (apart : Apart target path) (value : Json) :
    valuesAt target (some path) value = [] := by
  have elsewhere : (some path == some target) = false :=
    beq_false_of_ne fun same => apart "" (by simpa using same)
  rw [valuesAt.eq_def, elsewhere, if_neg Bool.false_ne_true]
  match value with
  | arr items => exact itemsAt_of_apart (apart.extend "item") items
  | obj fields => exact fieldsAt_of_apart apart fields
  | null | bool _ | int _ | real _ | str _ => rfl

theorem itemsAt_of_apart {target path : String} (apart : Apart target path) (items : List Json) :
    itemsAt target (some path) items = [] := by
  match items with
  | [] => rfl
  | item :: items =>
      rw [itemsAt, valuesAt_of_apart apart item, itemsAt_of_apart apart items, List.append_nil]

theorem fieldsAt_of_apart {target path : String} (apart : Apart target path)
    (fields : List (String × Json)) : fieldsAt target (some path) fields = [] := by
  match fields with
  | [] => rfl
  | (key, value) :: fields =>
      rw [fieldsAt, extendPath, valuesAt_of_apart (apart.extend key) value,
        fieldsAt_of_apart apart fields, List.append_nil]

end

/-- What a stream has come to behind a part that a dialect accepts or refuses: it has met the first
of the values of this part, and all of them if the part is accepted. -/
structure Streams (streamed : Streamed) (accepted : Except Number.Refusal Unit)
    (found values : List Json) (rest : List Char) : Prop where
  ending : streamed.2 = accepted.map fun _ => rest
  met : ∃ seen, streamed.1 = seen.reverse ++ found ∧ seen <+: values ∧
    (accepted = .ok () → seen = values)

theorem Streams.all {streamed : Streamed} {values found : List Json} {rest : List Char}
    (h : streamed = (values.reverse ++ found, .ok rest)) :
    Streams streamed (.ok ()) found values rest := by
  subst h
  exact ⟨rfl, values, rfl, List.prefix_refl values, fun _ => rfl⟩

theorem Streams.refused (found values : List Json) (rest : List Char) (refusal : Number.Refusal) :
    Streams (found, .error refusal) (.error refusal) found values rest :=
  ⟨rfl, [], rfl, List.nil_prefix, nofun⟩

def Streamed.andThen (streamed : Streamed) (next : List Json → Rest → Streamed) : Streamed :=
  match streamed with
  | (found, .error refusal) => (found, .error refusal)
  | (found, .ok rest) => next found rest

theorem Streams.andThen {streamed : Streamed} {accepted accepted' : Except Number.Refusal Unit}
    {found values values' : List Json} {rest rest' : List Char} {next : List Json → Rest → Streamed}
    (first : Streams streamed accepted found values rest)
    (later : Streams (next (values.reverse ++ found) rest) accepted' (values.reverse ++ found)
      values' rest') :
    Streams (streamed.andThen next) (accepted >>= fun _ => accepted') found (values ++ values')
      rest' := by
  obtain ⟨met, ending⟩ := streamed
  obtain ⟨rfl : ending = _, seen, rfl : met = _, initial, complete⟩ := first
  cases accepted with
  | error refusal =>
      exact ⟨rfl, seen, rfl, initial.trans (List.prefix_append values values'), nofun⟩
  | ok =>
      obtain rfl := complete rfl
      obtain ⟨ending, seen', met, initial, complete⟩ := later
      refine ⟨ending, seen ++ seen', ?_, (List.prefix_append_right_inj seen).mpr initial, ?_⟩
      · rw [List.reverse_append, List.append_assoc]
        exact met
      · exact fun accepts => congrArg (seen ++ ·) (complete accepts)

/-- What a stream over a whole text comes to: it has met the first of some values, and all of them
if the text is accepted. -/
structure Meets (streamed : List Json × Option Number.Refusal)
    (accepted : Except Number.Refusal Unit) (values : List Json) : Prop where
  ending : streamed.2 = match accepted with
    | .ok () => none
    | .error refusal => some refusal
  initial : streamed.1 <+: values
  complete : accepted = .ok () → streamed.1 = values

theorem Streams.meets {dialect : Dialect} {target : String} {text : List Char}
    {accepted : Except Number.Refusal Unit} {values : List Json} {rest : Rest}
    (streams : Streams (streamValue dialect target (fuelFor (text.dropWhile dialect.isBlank)) none
      [] (text.dropWhile dialect.isBlank)) accepted [] values rest)
    (blank : rest.all dialect.isBlank = true) :
    Meets (stream dialect target text) accepted values := by
  rw [stream]
  generalize streamValue dialect target _ none [] _ = streamed at streams ⊢
  obtain ⟨met, ending⟩ := streamed
  obtain ⟨rfl : ending = _, seen, rfl : met = _, initial, complete⟩ := streams
  rw [List.append_nil]
  cases accepted with
  | error refusal => exact ⟨rfl, by simpa [Except.map] using initial, nofun⟩
  | ok =>
      refine ⟨if_pos blank, ?_, fun accepts => ?_⟩
      · simpa [Except.map] using initial
      · simpa [Except.map] using complete accepts

/-! ## Steps of a stream -/

section

variable {dialect : Dialect} {target : String} {fuel : Nat} {path : Option String}
  {found : List Json} {text rest : List Char}

theorem streamValue_here (here : path = some target) :
    streamValue dialect target (fuel + 1) path found text =
      match readValue dialect (fuel + 1) text with
      | .ok (value, rest) => (value :: found, .ok rest)
      | .error refusal => (found, .error refusal) := by
  unfold streamValue
  exact if_pos (beq_iff_eq.mpr here)

variable (elsewhere : path ≠ some target)

include elsewhere

theorem streamValue_scalar (other : ∀ c ∈ text.head?, c ≠ '[' ∧ c ≠ '\x7b') :
    streamValue dialect target (fuel + 1) path found text =
      (found, (readValue dialect (fuel + 1) text).map (·.2)) := by
  unfold streamValue
  rw [if_neg (mt beq_iff_eq.mp elsewhere)]
  split
  case h_1 => exact absurd rfl (other '[' rfl).1
  case h_2 => exact absurd rfl (other '\x7b' rfl).2
  case h_3 => rfl

theorem streamValue_list_closed (closes : rest.dropWhile dialect.isBlank = ']' :: text) :
    streamValue dialect target (fuel + 1) path found ('[' :: rest) = (found, .ok text) := by
  unfold streamValue
  rw [if_neg (mt beq_iff_eq.mp elsewhere)]
  simp only [closes]

theorem streamValue_list_open (skips : rest.dropWhile dialect.isBlank = text)
    (goesOn : ∀ behind, text ≠ ']' :: behind) :
    streamValue dialect target (fuel + 1) path found ('[' :: rest) =
      streamItems dialect target fuel (extendPath path "item") found text := by
  unfold streamValue
  rw [if_neg (mt beq_iff_eq.mp elsewhere)]
  simp only [skips]

theorem streamValue_object_closed (closes : rest.dropWhile dialect.isBlank = '\x7d' :: text) :
    streamValue dialect target (fuel + 1) path found ('\x7b' :: rest) = (found, .ok text) := by
  unfold streamValue
  rw [if_neg (mt beq_iff_eq.mp elsewhere)]
  simp only [closes]

theorem streamValue_object_open (skips : rest.dropWhile dialect.isBlank = text)
    (goesOn : ∀ behind, text ≠ '\x7d' :: behind) :
    streamValue dialect target (fuel + 1) path found ('\x7b' :: rest) =
      streamFields dialect target fuel path found text := by
  unfold streamValue
  rw [if_neg (mt beq_iff_eq.mp elsewhere)]
  simp only [skips]

theorem valuesAt_elsewhere (value : Json) :
    valuesAt target path value =
      match value with
      | arr items => itemsAt target (extendPath path "item") items
      | obj fields => fieldsAt target path fields
      | _ => [] := by
  rw [valuesAt.eq_def, if_neg (mt beq_iff_eq.mp elsewhere)]

end

/-! ## Streams over written values -/

theorem BeginsWord.scalar {text : List Char} (word : BeginsWord text) :
    ∃ c ∈ text.head?, c ≠ '[' ∧ c ≠ '\x7b' := by
  obtain ⟨c, first, -, other⟩ := word
  exact ⟨c, first, by rintro rfl; simp at other, by rintro rfl; simp at other⟩

section

variable {spacing : Spacing} {dialect : Dialect} (skipped : spacing.Skipped dialect)
  (target : String)

include skipped

theorem streams_here {value : Json} {depth fuel : Nat} {path : Option String} (found : List Json)
    {rest : List Char} (here : path = some target) (distinct : value.Distinct)
    (enough : (chars spacing depth value).length ≤ fuel + 1) (ends : EndsNumber rest) :
    Streams (streamValue dialect target (fuel + 1) path found (chars spacing depth value ++ rest))
      (accept dialect value) found (valuesAt target path value) rest := by
  have values : valuesAt target path value = [value] := by
    rw [valuesAt.eq_def, if_pos (beq_iff_eq.mpr here)]
  rw [streamValue_here here, readValue_chars skipped value depth _ rest distinct enough ends,
    values]
  cases accept dialect value with
  | error refusal => exact .refused _ _ _ _
  | ok => exact .all rfl

theorem streams_scalar {value : Json} {depth fuel : Nat} {path : Option String} (found : List Json)
    {rest : List Char} (elsewhere : path ≠ some target)
    (other : ∃ c ∈ (chars spacing depth value).head?, c ≠ '[' ∧ c ≠ '\x7b')
    (scalar : valuesAt target path value = []) (distinct : value.Distinct)
    (enough : (chars spacing depth value).length ≤ fuel + 1) (ends : EndsNumber rest) :
    Streams (streamValue dialect target (fuel + 1) path found (chars spacing depth value ++ rest))
      (accept dialect value) found (valuesAt target path value) rest := by
  obtain ⟨c, first, ne⟩ := other
  obtain ⟨tail, split⟩ := List.head?_eq_some_iff.mp first
  have other : ∀ c' ∈ (chars spacing depth value ++ rest).head?, c' ≠ '[' ∧ c' ≠ '\x7b' := by
    rw [split]
    rintro _ ⟨⟩
    exact ne
  rw [streamValue_scalar elsewhere other,
    readValue_chars skipped value depth _ rest distinct enough ends, scalar]
  cases accept dialect value with
  | error refusal => exact .refused _ _ _ _
  | ok => exact .all rfl

mutual

theorem streamValue_chars (value : Json) (depth fuel : Nat) (path : Option String)
    (found : List Json) (rest : List Char) (distinct : value.Distinct)
    (enough : (chars spacing depth value).length ≤ fuel + 1) (ends : EndsNumber rest) :
    Streams (streamValue dialect target (fuel + 1) path found (chars spacing depth value ++ rest))
      (accept dialect value) found (valuesAt target path value) rest := by
  by_cases here : path = some target
  · exact streams_here skipped target found here distinct enough ends
  have values := valuesAt_elsewhere here
  match value with
  | null =>
      exact streams_scalar skipped target found here ⟨'n', rfl, by decide⟩ (values _) distinct
        enough ends
  | bool value =>
      exact streams_scalar skipped target found here (beginsWord_bool value).scalar (values _)
        distinct enough ends
  | int value =>
      exact streams_scalar skipped target found here (beginsWord_toString value).scalar (values _)
        distinct enough ends
  | real value =>
      exact streams_scalar skipped target found here (beginsWord_writeReal value).scalar (values _)
        distinct enough ends
  | str value =>
      refine streams_scalar skipped target found here ⟨'"', ?_, by decide⟩ (values _) distinct
        enough ends
      rw [chars, writeString, String.toList_ofList]
      rfl
  | arr [] =>
      rw [chars, values]
      exact .all (streamValue_list_closed here
        (skipped.dropWhile_cons (by decide : 0x20 < ']'.toNat) rest))
  | arr (item :: items) =>
      rw [chars] at enough ⊢
      simp only [List.length_cons, List.length_append] at enough
      have begins := (begins_chars spacing (depth + 1) item).append
      rw [values, List.cons_append, List.append_assoc, List.append_assoc, List.append_assoc,
        List.append_assoc,
        streamValue_list_open here (skipped.dropWhile_lineBreak _ (begins _).printed)
          (begins _).goesOn.1]
      exact streamItems_chars item items (depth + 1) depth fuel _ found rest distinct (by omega)
  | obj [] =>
      rw [chars, values]
      exact .all (streamValue_object_closed here
        (skipped.dropWhile_cons (by decide : 0x20 < '\x7d'.toNat) rest))
  | obj ((key, value) :: fields) =>
      rw [chars] at enough ⊢
      simp only [List.length_cons, List.length_append] at enough
      have begins := (begins_writeString key).append
      rw [values, List.cons_append, List.append_assoc, List.append_assoc, List.append_assoc,
        List.append_assoc, List.append_assoc, List.append_assoc, List.singleton_append,
        streamValue_object_open here (skipped.dropWhile_lineBreak _ (begins _).printed)
          (begins _).goesOn.2]
      exact streamFields_chars key value fields (depth + 1) depth fuel path found rest distinct.2
        (by omega)
termination_by sizeOf value

theorem streamItems_chars (item : Json) (items : List Json) (depth outer fuel : Nat)
    (path : Option String) (found : List Json) (rest : List Char)
    (distinct : DistinctItems (item :: items))
    (enough : (chars spacing depth item).length + (itemsChars spacing depth items).length < fuel) :
    Streams (streamItems dialect target fuel path found (chars spacing depth item ++
        (itemsChars spacing depth items ++ ((spacing.lineBreak outer).toList ++ ']' :: rest))))
      (acceptItems dialect (item :: items)) found (itemsAt target path (item :: items)) rest := by
  have positive := length_chars_pos spacing depth item
  match items with
  | [] =>
      obtain ⟨fuel, rfl⟩ := Nat.exists_eq_add_of_le' (by omega : 2 ≤ fuel)
      have ends : EndsNumber ((spacing.lineBreak outer).toList ++ ']' :: rest) :=
        skipped.endsNumber (by decide) rest
      have first := streamValue_chars item depth fuel path found _ distinct.1 (by omega) ends
      rw [streamItems, itemsChars, List.nil_append, itemsAt, itemsAt, acceptItems, acceptItems]
      refine first.andThen (.all ?_)
      rw [skipped.dropWhile_lineBreak outer ⟨']', rfl, by decide⟩]
      rfl
  | next :: more =>
      obtain ⟨fuel, rfl⟩ := Nat.exists_eq_add_of_le' (by omega : 2 ≤ fuel)
      have begins := (begins_chars spacing depth next).append
      rw [itemsChars, List.length_cons, List.length_append, List.length_append] at enough
      have first (behind : List Char) := streamValue_chars item depth fuel path found
        (',' :: behind) distinct.1 (by omega) (endsNumber_comma behind)
      have later (found : List Json) :=
        streamItems_chars next more depth outer (fuel + 1) path found rest distinct.2 (by omega)
      rw [streamItems, itemsAt, acceptItems, itemsChars, List.cons_append, List.append_assoc,
        List.append_assoc]
      refine (first _).andThen ?_
      simp only [skipped.dropWhile_cons (by decide : 0x20 < ','.toNat)]
      rw [skipped.dropWhile_lineBreak depth (begins _).printed]
      exact later _
termination_by sizeOf (item :: items)

theorem streamFields_chars (key : String) (value : Json) (fields : List (String × Json))
    (depth outer fuel : Nat) (path : Option String) (found : List Json) (rest : List Char)
    (distinct : DistinctFields ((key, value) :: fields))
    (enough :
      (chars spacing depth value).length + (fieldsChars spacing depth fields).length < fuel) :
    Streams (streamFields dialect target fuel path found ((writeString key).toList ++
        (spacing.colon.toList ++ (chars spacing depth value ++ (fieldsChars spacing depth fields ++
          ((spacing.lineBreak outer).toList ++ '\x7d' :: rest))))))
      (acceptFields dialect ((key, value) :: fields)) found
      (fieldsAt target path ((key, value) :: fields)) rest := by
  have positive := length_chars_pos spacing depth value
  have name (behind : List Char) := readKey_writeString skipped key
    ((begins_chars spacing depth value).append behind)
  match fields with
  | [] =>
      obtain ⟨fuel, rfl⟩ := Nat.exists_eq_add_of_le' (by omega : 2 ≤ fuel)
      have ends : EndsNumber ((spacing.lineBreak outer).toList ++ '\x7d' :: rest) :=
        skipped.endsNumber (by decide) rest
      have first := streamValue_chars value depth fuel (extendPath path key) found _ distinct.1
        (by omega) ends
      rw [streamFields, name]
      simp only
      rw [fieldsChars, List.nil_append, fieldsAt, fieldsAt, acceptFields, acceptFields]
      refine first.andThen (.all ?_)
      rw [skipped.dropWhile_lineBreak outer ⟨'\x7d', rfl, by decide⟩]
      rfl
  | (next, value') :: more =>
      obtain ⟨fuel, rfl⟩ := Nat.exists_eq_add_of_le' (by omega : 2 ≤ fuel)
      have begins := (begins_writeString next).append
      rw [fieldsChars, List.length_cons, List.length_append, List.length_append, List.length_append,
        List.length_append] at enough
      have first (behind : List Char) := streamValue_chars value depth fuel (extendPath path key)
        found (',' :: behind) distinct.1 (by omega) (endsNumber_comma behind)
      have later (found : List Json) := streamFields_chars next value' more depth outer (fuel + 1)
        path found rest distinct.2 (by omega)
      rw [streamFields, name]
      simp only
      rw [fieldsAt, acceptFields, fieldsChars, List.cons_append, List.append_assoc,
        List.append_assoc, List.append_assoc, List.append_assoc]
      refine (first _).andThen ?_
      simp only [skipped.dropWhile_cons (by decide : 0x20 < ','.toNat)]
      rw [skipped.dropWhile_lineBreak depth (begins _).printed]
      exact later _
termination_by sizeOf ((key, value) :: fields)

end

theorem stream_append {value : Json} (distinct : value.Distinct) :
    Meets (stream dialect target (append spacing 0 "" value).toList) (accept dialect value)
      (valuesAt target none value) := by
  have begins := dropWhile_chars skipped 0 value []
  have streams := streamValue_chars skipped target value 0 (3 * (chars spacing 0 value).length + 2)
    none [] [] distinct (by omega) (by rintro c ⟨⟩)
  rw [List.append_nil] at begins streams
  rw [toList_append, String.toList_empty, List.nil_append]
  rw [← begins] at streams
  exact streams.meets rfl

end

end CallTimeline.Json
