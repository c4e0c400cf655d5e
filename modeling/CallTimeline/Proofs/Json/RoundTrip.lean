import CallTimeline.Json.Name
import CallTimeline.Proofs.Json.Fields
import CallTimeline.Proofs.Json.Parts

/-!
# What is written can be read

The reader gives back every value that was written (`read_append`), with any spacing, as long as
the dialect accepts the numbers in it; the first that it does not accept is the refusal.
-/

namespace CallTimeline.Json

/-! ## The text of a value -/

section

variable (spacing : Spacing)

mutual

def chars (depth : Nat) : Json → List Char
  | null => "null".toList
  | bool value => if value then "true".toList else "false".toList
  | int value => (toString value).toList
  | real value => (writeReal value).toList
  | str value => (writeString value).toList
  | arr [] => ['[', ']']
  | arr (item :: items) =>
    '[' :: ((spacing.lineBreak (depth + 1)).toList ++ (chars (depth + 1) item ++
      (itemsChars (depth + 1) items ++ ((spacing.lineBreak depth).toList ++ [']']))))
  | obj [] => ['\x7b', '\x7d']
  | obj ((key, value) :: fields) =>
    '\x7b' :: ((spacing.lineBreak (depth + 1)).toList ++ ((writeString key).toList ++
      (spacing.colon.toList ++ (chars (depth + 1) value ++
        (fieldsChars (depth + 1) fields ++ ((spacing.lineBreak depth).toList ++ ['\x7d']))))))

def itemsChars (depth : Nat) : List Json → List Char
  | [] => []
  | item :: items =>
    ',' :: ((spacing.lineBreak depth).toList ++ (chars depth item ++ itemsChars depth items))

def fieldsChars (depth : Nat) : List (String × Json) → List Char
  | [] => []
  | (key, value) :: fields =>
    ',' :: ((spacing.lineBreak depth).toList ++ ((writeString key).toList ++
      (spacing.colon.toList ++ (chars depth value ++ fieldsChars depth fields))))

end

mutual

theorem toList_append (depth : Nat) (out : String) (value : Json) :
    (append spacing depth out value).toList = out.toList ++ chars spacing depth value := by
  match value with
  | null => simp [append, chars]
  | bool value => cases value <;> simp [append, chars]
  | int value => simp [append, chars]
  | real value => simp [append, chars]
  | str value => simp [append, chars]
  | arr [] => simp [append, chars]
  | arr (item :: items) =>
      simp [append, chars, toList_appendItems (depth + 1) _ items, toList_append (depth + 1) _ item]
  | obj [] => simp [append, chars]
  | obj ((key, value) :: fields) =>
      simp [append, chars, toList_appendFields (depth + 1) _ fields,
        toList_append (depth + 1) _ value]

theorem toList_appendItems (depth : Nat) (out : String) (items : List Json) :
    (appendItems spacing depth out items).toList =
      out.toList ++ itemsChars spacing depth items := by
  match items with
  | [] => simp [appendItems, itemsChars]
  | item :: items =>
      simp [appendItems, itemsChars, toList_appendItems depth _ items, toList_append depth _ item]

theorem toList_appendFields (depth : Nat) (out : String) (fields : List (String × Json)) :
    (appendFields spacing depth out fields).toList =
      out.toList ++ fieldsChars spacing depth fields := by
  match fields with
  | [] => simp [appendFields, fieldsChars]
  | (key, value) :: fields =>
      simp [appendFields, fieldsChars, toList_appendFields depth _ fields,
        toList_append depth _ value]

end

end

/-! ## What a dialect accepts -/

section

variable (dialect : Dialect)

mutual

def accept : Json → Except Number.Refusal Unit
  | int value => acceptInt dialect value
  | real value => acceptReal dialect value
  | arr items => acceptItems items
  | obj fields => acceptFields fields
  | _ => .ok ()

def acceptItems : List Json → Except Number.Refusal Unit
  | [] => .ok ()
  | item :: items => accept item >>= fun _ => acceptItems items

def acceptFields : List (String × Json) → Except Number.Refusal Unit
  | [] => .ok ()
  | (_, value) :: fields => accept value >>= fun _ => acceptFields fields

end

end

mutual

def numbers : Json → List Numeral
  | int value => [.int value]
  | real value => [.real value]
  | arr items => itemsNumbers items
  | obj fields => fieldsNumbers fields
  | _ => []

def itemsNumbers : List Json → List Numeral
  | [] => []
  | item :: items => item.numbers ++ itemsNumbers items

def fieldsNumbers : List (String × Json) → List Numeral
  | [] => []
  | (_, value) :: fields => value.numbers ++ fieldsNumbers fields

end

theorem itemsNumbers_eq (items : List Json) : itemsNumbers items = items.flatMap numbers := by
  induction items with
  | nil => rfl
  | cons item items ih => rw [itemsNumbers, ih, List.flatMap_cons]

theorem fieldsNumbers_eq (fields : List (String × Json)) :
    fieldsNumbers fields = fields.flatMap fun field => field.2.numbers := by
  induction fields with
  | nil => rfl
  | cons field fields ih => rw [fieldsNumbers, ih, List.flatMap_cons]

def Numeral.accept (dialect : Dialect) : Numeral → Except Number.Refusal Unit
  | int value => acceptInt dialect value
  | real value => acceptReal dialect value

theorem accepts_both {first second : Except Number.Refusal Unit} :
    (first >>= fun _ => second) = .ok () ↔ first = .ok () ∧ second = .ok () := by
  cases first <;> simp [bind, Except.bind]

mutual

theorem accept_eq_ok (dialect : Dialect) (value : Json) :
    accept dialect value = .ok () ↔ ∀ number ∈ value.numbers, number.accept dialect = .ok () := by
  match value with
  | null | bool _ | str _ => simp [accept, numbers]
  | int value => simp [accept, numbers, Numeral.accept]
  | real value => simp [accept, numbers, Numeral.accept]
  | arr items => exact acceptItems_eq_ok dialect items
  | obj fields => exact acceptFields_eq_ok dialect fields

theorem acceptItems_eq_ok (dialect : Dialect) (items : List Json) :
    acceptItems dialect items = .ok () ↔
      ∀ number ∈ itemsNumbers items, number.accept dialect = .ok () := by
  match items with
  | [] => simp [acceptItems, itemsNumbers]
  | item :: items =>
      rw [acceptItems, accepts_both, accept_eq_ok dialect item, acceptItems_eq_ok dialect items,
        itemsNumbers, List.forall_mem_append]

theorem acceptFields_eq_ok (dialect : Dialect) (fields : List (String × Json)) :
    acceptFields dialect fields = .ok () ↔
      ∀ number ∈ fieldsNumbers fields, number.accept dialect = .ok () := by
  match fields with
  | [] => simp [acceptFields, fieldsNumbers]
  | (_, value) :: fields =>
      rw [acceptFields, accepts_both, accept_eq_ok dialect value, acceptFields_eq_ok dialect fields,
        fieldsNumbers, List.forall_mem_append]

end

/-- Within 64 bits if it is whole, finite if it is a double. -/
def Numeral.IsNarrow : Numeral → Prop
  | int value => value.natAbs ≤ 0x7FFFFFFFFFFFFFFF
  | real value => Double.isFinite value = true

instance : DecidablePred Numeral.IsNarrow
  | .int value => inferInstanceAs (Decidable (value.natAbs ≤ 0x7FFFFFFFFFFFFFFF))
  | .real value => inferInstanceAs (Decidable (Double.isFinite value = true))

theorem accept_narrow_eq_ok {value : Json} :
    accept .narrow value = .ok () ↔ ∀ number ∈ value.numbers, number.IsNarrow := by
  rw [accept_eq_ok]
  refine forall₂_congr fun number _ => ?_
  cases number with
  | int value => simp [Numeral.accept, acceptInt, Dialect.narrow, Numeral.IsNarrow, malformed]
  | real value => simp [Numeral.accept, acceptReal, Dialect.narrow, Numeral.IsNarrow, malformed]

/-- Not longer than a whole number may be written. -/
def Numeral.IsShort : Numeral → Prop
  | int value => Number.digitCount value.natAbs ≤ Number.digitLimit
  | real _ => True

instance : DecidablePred Numeral.IsShort
  | .int value => inferInstanceAs (Decidable (Number.digitCount value.natAbs ≤ Number.digitLimit))
  | .real _ => inferInstanceAs (Decidable True)

theorem accept_wide_eq_ok {value : Json} :
    accept .wide value = .ok () ↔ ∀ number ∈ value.numbers, number.IsShort := by
  rw [accept_eq_ok]
  refine forall₂_congr fun number _ => ?_
  cases number with
  | int value =>
      simp [Numeral.accept, acceptInt, Dialect.wide, Numeral.IsShort, Number.digitCount]
  | real value => simp [Numeral.accept, acceptReal, Dialect.wide, Numeral.IsShort]

theorem accept_narrow_of_wide {value : Json} (wide : ∃ number ∈ value.numbers, ¬number.IsNarrow) :
    ∃ refusal, accept .narrow value = .error refusal := by
  obtain ⟨number, member, wide⟩ := wide
  cases accepted : accept .narrow value with
  | error refusal => exact ⟨refusal, rfl⟩
  | ok => exact absurd (accept_narrow_eq_ok.mp accepted number member) wide

mutual

def Distinct : Json → Prop
  | arr items => DistinctItems items
  | obj fields => (fields.map (·.1)).Nodup ∧ DistinctFields fields
  | _ => True

def DistinctItems : List Json → Prop
  | [] => True
  | item :: items => item.Distinct ∧ DistinctItems items

def DistinctFields : List (String × Json) → Prop
  | [] => True
  | (_, value) :: fields => value.Distinct ∧ DistinctFields fields

end

theorem distinctItems_iff {items : List Json} :
    DistinctItems items ↔ ∀ item ∈ items, item.Distinct := by
  induction items with
  | nil => simp [DistinctItems]
  | cons item items ih => rw [DistinctItems, ih, List.forall_mem_cons]

theorem distinctFields_iff {fields : List (String × Json)} :
    DistinctFields fields ↔ ∀ field ∈ fields, field.2.Distinct := by
  induction fields with
  | nil => simp [DistinctFields]
  | cons field fields ih => rw [DistinctFields, ih, List.forall_mem_cons]

/-! ## Blanks -/

structure Spacing.Skipped (spacing : Spacing) (dialect : Dialect) : Prop where
  printed : ∀ c, dialect.isBlank c = true → c.toNat ≤ 0x20
  lineBreak : ∀ depth, ∀ c ∈ (spacing.lineBreak depth).toList, dialect.isBlank c = true
  colon : ∃ blanks, spacing.colon.toList = ':' :: blanks ∧ ∀ c ∈ blanks, dialect.isBlank c = true

section

variable {spacing : Spacing} {dialect : Dialect} (skipped : spacing.Skipped dialect)

include skipped

theorem Spacing.Skipped.isBlank_of_printed {c : Char} (printed : 0x20 < c.toNat) :
    dialect.isBlank c = false := by
  rw [← Bool.not_eq_true]
  intro blank
  have := skipped.printed c blank
  omega

theorem Spacing.Skipped.dropWhile_append {blanks text : List Char}
    (filled : ∀ c ∈ blanks, dialect.isBlank c = true) (printed : ∃ c ∈ text.head?, 0x20 < c.toNat) :
    (blanks ++ text).dropWhile dialect.isBlank = text := by
  obtain ⟨c, first, property⟩ := printed
  refine Text.dropWhile_append_of_head? filled fun d head => ?_
  rw [Option.mem_unique head first]
  exact skipped.isBlank_of_printed property

theorem Spacing.Skipped.dropWhile_lineBreak (depth : Nat) {text : List Char}
    (printed : ∃ c ∈ text.head?, 0x20 < c.toNat) :
    ((spacing.lineBreak depth).toList ++ text).dropWhile dialect.isBlank = text :=
  skipped.dropWhile_append (skipped.lineBreak depth) printed

theorem Spacing.Skipped.dropWhile_cons {c : Char} (printed : 0x20 < c.toNat) (text : List Char) :
    (c :: text).dropWhile dialect.isBlank = c :: text :=
  List.dropWhile_cons_of_neg (by simp [skipped.isBlank_of_printed printed])

theorem Spacing.Skipped.endsNumber {depth : Nat} {c : Char} (closes : c ∈ [',', ']', '\x7d'])
    (rest : List Char) : EndsNumber ((spacing.lineBreak depth).toList ++ c :: rest) := by
  intro d head
  have blank : (spacing.lineBreak depth).toList ≠ [] → d.toNat ≤ 0x20 := by
    intro ne
    obtain ⟨first, others, split⟩ := List.exists_cons_of_ne_nil ne
    rw [split, List.cons_append, List.head?_cons, Option.mem_def, Option.some.injEq] at head
    exact head ▸ skipped.printed first (skipped.lineBreak depth first (by simp [split]))
  by_cases empty : (spacing.lineBreak depth).toList = []
  · rw [empty, List.nil_append, List.head?_cons, Option.mem_def, Option.some.injEq] at head
    revert d
    revert c
    simp only [List.mem_cons, List.not_mem_nil, or_false]
    rintro c (rfl | rfl | rfl) d rfl - <;> decide
  · have small := blank empty
    refine ⟨?_, ?_, ?_, ?_⟩
    · rw [← Bool.not_eq_true, Char.isDigit_iff_toNat]
      have : '0'.toNat = 48 := rfl
      omega
    all_goals
      rintro rfl
      exact absurd small (by decide)

end

theorem endsNumber_comma (rest : List Char) : EndsNumber (',' :: rest) := by
  rintro c ⟨⟩
  decide

theorem begins_chars (spacing : Spacing) (depth : Nat) (value : Json) :
    Begins (chars spacing depth value) := by
  match value with
  | null => exact ⟨'n', rfl, by decide⟩
  | bool value => exact (beginsWord_bool value).begins
  | int value => exact (beginsWord_toString value).begins
  | real value => exact (beginsWord_writeReal value).begins
  | str value => exact begins_writeString value
  | arr [] => exact ⟨'[', rfl, by decide⟩
  | arr (item :: items) => exact ⟨'[', by rw [chars]; rfl, by decide⟩
  | obj [] => exact ⟨'\x7b', rfl, by decide⟩
  | obj ((key, value) :: fields) => exact ⟨'\x7b', by rw [chars]; rfl, by decide⟩

theorem length_chars_pos (spacing : Spacing) (depth : Nat) (value : Json) :
    0 < (chars spacing depth value).length := by
  obtain ⟨c, first, -⟩ := begins_chars spacing depth value
  obtain ⟨others, split⟩ := List.head?_eq_some_iff.mp first
  rw [split]
  exact Nat.succ_pos _

/-! ## Steps of the reader -/

section

variable {dialect : Dialect} {fuel : Nat} {text rest behind : List Char}

theorem readValue_word (word : BeginsWord text) :
    readValue dialect (fuel + 1) (text ++ rest) = readWord dialect (text ++ rest) := by
  obtain ⟨c, first, -, other⟩ := word
  obtain ⟨tail, rfl⟩ := List.head?_eq_some_iff.mp first
  have among : ['"', '[', '\x7b'] ⊆ ['"', '[', ']', '\x7b', '\x7d'] := by decide
  exact readValue_other fun member => other (among member)

theorem readValue_list (skips : rest.dropWhile dialect.isBlank = text) (begins : Begins text) :
    readValue dialect (fuel + 1) ('[' :: rest) = readItems dialect fuel [] text := by
  rw [readValue, skips]
  split
  case h_1 => exact absurd rfl (begins.goesOn.1 _)
  case h_2 => rfl

theorem readValue_object (skips : rest.dropWhile dialect.isBlank = text) (begins : Begins text) :
    readValue dialect (fuel + 1) ('\x7b' :: rest) = readFields dialect fuel [] text := by
  rw [readValue, skips]
  split
  case h_1 => exact absurd rfl (begins.goesOn.2 _)
  case h_2 => rfl

section

variable {accepted : Except Number.Refusal Unit} {value : Json}
  (reads : readValue dialect fuel text = accepted.map fun _ => (value, behind))

section

variable {done : List Json}

include reads

theorem readItems_last (closes : behind.dropWhile dialect.isBlank = ']' :: rest) :
    readItems dialect (fuel + 1) done text =
      accepted.map fun _ => (.arr (done.reverse ++ [value]), rest) := by
  rw [readItems, reads]
  cases accepted with
  | error refusal => rfl
  | ok => simp only [Except.map, closes, List.reverse_cons]

theorem readItems_next (comma : behind.dropWhile dialect.isBlank = ',' :: rest) :
    readItems dialect (fuel + 1) done text =
      accepted >>= fun _ =>
        readItems dialect fuel (value :: done) (rest.dropWhile dialect.isBlank) := by
  rw [readItems, reads]
  cases accepted with
  | error refusal => rfl
  | ok =>
      simp only [Except.map, comma]
      rfl

end

section

variable {done : List (String × Json)} {key : String} {named : List Char}
  (name : readKey dialect named = .ok (key, text))

include name reads

theorem readFields_last (closes : behind.dropWhile dialect.isBlank = '\x7d' :: rest) :
    readFields dialect (fuel + 1) done named =
      accepted.map fun _ => (.obj (Fields.ofPairs (done.reverse ++ [(key, value)])), rest) := by
  rw [readFields, name]
  simp only [reads]
  cases accepted with
  | error refusal => rfl
  | ok => simp only [Except.map, closes, List.reverse_cons]

theorem readFields_next (comma : behind.dropWhile dialect.isBlank = ',' :: rest) :
    readFields dialect (fuel + 1) done named =
      accepted >>= fun _ =>
        readFields dialect fuel ((key, value) :: done) (rest.dropWhile dialect.isBlank) := by
  rw [readFields, name]
  simp only [reads]
  cases accepted with
  | error refusal => rfl
  | ok =>
      simp only [Except.map, comma]
      rfl

end

end

end

section

variable {spacing : Spacing} {dialect : Dialect} (skipped : spacing.Skipped dialect)

include skipped

theorem readKey_writeString (key : String) {text : List Char} (begins : Begins text) :
    readKey dialect ((writeString key).toList ++ (spacing.colon.toList ++ text)) =
      .ok (key, text) := by
  obtain ⟨blanks, colon, filled⟩ := skipped.colon
  obtain ⟨c, first, printed, -⟩ := begins
  rw [writeString, String.toList_ofList, colon, List.append_assoc, List.cons_append,
    List.cons_append, List.nil_append, List.cons_append, readKey, readString_writeString]
  simp only
  rw [List.dropWhile_cons, skipped.isBlank_of_printed (by decide : 0x20 < ':'.toNat)]
  simp only [Bool.false_eq_true, if_false]
  rw [skipped.dropWhile_append filled ⟨c, first, printed⟩]

mutual

theorem readValue_chars (value : Json) (depth fuel : Nat) (rest : List Char)
    (distinct : value.Distinct) (enough : (chars spacing depth value).length ≤ fuel)
    (ends : EndsNumber rest) :
    readValue dialect fuel (chars spacing depth value ++ rest) =
      (accept dialect value).map fun _ => (value, rest) := by
  -- The fuel is split in each case: split before the match, it would hide that the parts get
  -- smaller.
  have running : ∃ more, fuel = more + 1 :=
    Nat.exists_eq_add_one.mpr (Nat.lt_of_lt_of_le (length_chars_pos spacing depth value) enough)
  match value with
  | null =>
      obtain ⟨fuel, rfl⟩ := running
      have word : BeginsWord "null".toList := ⟨'n', rfl, by decide⟩
      rw [chars, readValue_word word, readWord_null]
      rfl
  | bool value =>
      obtain ⟨fuel, rfl⟩ := running
      rw [chars, readValue_word (beginsWord_bool value), readWord_bool]
      rfl
  | int value =>
      obtain ⟨fuel, rfl⟩ := running
      rw [chars, readValue_word (beginsWord_toString value), readWord_int value ends]
      rfl
  | real value =>
      obtain ⟨fuel, rfl⟩ := running
      rw [chars, readValue_word (beginsWord_writeReal value), readWord_real value ends]
      rfl
  | str value =>
      obtain ⟨fuel, rfl⟩ := running
      rw [chars, writeString, String.toList_ofList, List.append_assoc, List.cons_append, readValue,
        List.cons_append, List.nil_append, readString_writeString]
      rfl
  | arr [] =>
      obtain ⟨fuel, rfl⟩ := running
      rw [chars, List.cons_append, readValue, List.cons_append,
        skipped.dropWhile_cons (by decide : 0x20 < ']'.toNat)]
      rfl
  | arr (item :: items) =>
      obtain ⟨fuel, rfl⟩ := running
      rw [chars] at enough ⊢
      simp only [List.length_cons, List.length_append] at enough
      have begins := (begins_chars spacing (depth + 1) item).append
      rw [List.cons_append, List.append_assoc, List.append_assoc, List.append_assoc,
        List.append_assoc, readValue_list (skipped.dropWhile_lineBreak _ (begins _).printed)
          (begins _)]
      exact readItems_chars item items (depth + 1) depth fuel [] rest distinct (by omega)
  | obj [] =>
      obtain ⟨fuel, rfl⟩ := running
      rw [chars, List.cons_append, readValue, List.cons_append,
        skipped.dropWhile_cons (by decide : 0x20 < '\x7d'.toNat)]
      rfl
  | obj ((key, value) :: fields) =>
      obtain ⟨fuel, rfl⟩ := running
      rw [chars] at enough ⊢
      simp only [List.length_cons, List.length_append] at enough
      have fields_eq := readFields_chars key value fields (depth + 1) depth fuel [] rest distinct.2
        (by omega)
      have begins := (begins_writeString key).append
      rw [List.cons_append, List.append_assoc, List.append_assoc, List.append_assoc,
        List.append_assoc, List.append_assoc, List.append_assoc, List.singleton_append,
        readValue_object (skipped.dropWhile_lineBreak _ (begins _).printed) (begins _), fields_eq,
        List.reverse_nil, List.nil_append, Fields.ofPairs_of_nodup distinct.1]
      rfl
termination_by sizeOf value

theorem readItems_chars (item : Json) (items : List Json) (depth outer fuel : Nat)
    (done : List Json) (rest : List Char) (distinct : DistinctItems (item :: items))
    (enough : (chars spacing depth item).length + (itemsChars spacing depth items).length < fuel) :
    readItems dialect fuel done (chars spacing depth item ++
        (itemsChars spacing depth items ++ ((spacing.lineBreak outer).toList ++ ']' :: rest))) =
      (acceptItems dialect (item :: items)).map fun _ =>
        (.arr (done.reverse ++ item :: items), rest) := by
  have running : ∃ more, fuel = more + 1 :=
    Nat.exists_eq_add_one.mpr (Nat.lt_of_le_of_lt (Nat.zero_le _) enough)
  rw [acceptItems]
  match items with
  | [] =>
      obtain ⟨fuel, rfl⟩ := running
      have ends : EndsNumber ((spacing.lineBreak outer).toList ++ ']' :: rest) :=
        skipped.endsNumber (by decide) rest
      have reads := readValue_chars item depth fuel _ distinct.1 (by omega) ends
      rw [itemsChars, List.nil_append,
        readItems_last reads (skipped.dropWhile_lineBreak outer ⟨']', rfl, by decide⟩)]
      cases accept dialect item <;> rfl
  | next :: more =>
      obtain ⟨fuel, rfl⟩ := running
      have begins := (begins_chars spacing depth next).append
      rw [itemsChars, List.length_cons, List.length_append, List.length_append] at enough
      have reads (behind : List Char) := readValue_chars item depth fuel (',' :: behind) distinct.1
        (by omega) (endsNumber_comma behind)
      rw [itemsChars, List.cons_append, List.append_assoc, List.append_assoc,
        readItems_next (reads _) (skipped.dropWhile_cons (by decide) _),
        skipped.dropWhile_lineBreak depth (begins _).printed,
        readItems_chars next more depth outer fuel (item :: done) rest distinct.2 (by omega),
        List.reverse_cons, List.append_assoc]
      cases accept dialect item <;> rfl
termination_by sizeOf (item :: items)

theorem readFields_chars (key : String) (value : Json) (fields : List (String × Json))
    (depth outer fuel : Nat) (done : List (String × Json)) (rest : List Char)
    (distinct : DistinctFields ((key, value) :: fields))
    (enough :
      (chars spacing depth value).length + (fieldsChars spacing depth fields).length < fuel) :
    readFields dialect fuel done ((writeString key).toList ++ (spacing.colon.toList ++
        (chars spacing depth value ++ (fieldsChars spacing depth fields ++
          ((spacing.lineBreak outer).toList ++ '\x7d' :: rest))))) =
      (acceptFields dialect ((key, value) :: fields)).map fun _ =>
        (.obj (Fields.ofPairs (done.reverse ++ (key, value) :: fields)), rest) := by
  have running : ∃ more, fuel = more + 1 :=
    Nat.exists_eq_add_one.mpr (Nat.lt_of_le_of_lt (Nat.zero_le _) enough)
  have name (behind : List Char) := readKey_writeString skipped key
    ((begins_chars spacing depth value).append behind)
  rw [acceptFields]
  match fields with
  | [] =>
      obtain ⟨fuel, rfl⟩ := running
      have ends : EndsNumber ((spacing.lineBreak outer).toList ++ '\x7d' :: rest) :=
        skipped.endsNumber (by decide) rest
      have reads := readValue_chars value depth fuel _ distinct.1 (by omega) ends
      rw [fieldsChars, List.nil_append, readFields_last reads (name _)
        (skipped.dropWhile_lineBreak outer ⟨'\x7d', rfl, by decide⟩)]
      cases accept dialect value <;> rfl
  | (next, value') :: more =>
      obtain ⟨fuel, rfl⟩ := running
      have begins := (begins_writeString next).append
      rw [fieldsChars, List.length_cons, List.length_append, List.length_append, List.length_append,
        List.length_append] at enough
      have reads (behind : List Char) := readValue_chars value depth fuel (',' :: behind) distinct.1
        (by omega) (endsNumber_comma behind)
      rw [fieldsChars, List.cons_append, List.append_assoc, List.append_assoc, List.append_assoc,
        List.append_assoc,
        readFields_next (reads _) (name _) (skipped.dropWhile_cons (by decide) _),
        skipped.dropWhile_lineBreak depth (begins _).printed,
        readFields_chars next value' more depth outer fuel ((key, value) :: done) rest distinct.2
          (by omega),
        List.reverse_cons, List.append_assoc]
      cases accept dialect value <;> rfl
termination_by sizeOf ((key, value) :: fields)

end

end

/-! ## Whole texts -/

section

variable {spacing : Spacing} {dialect : Dialect} (skipped : spacing.Skipped dialect) {value : Json}

include skipped

theorem dropWhile_chars (depth : Nat) (value : Json) (rest : List Char) :
    (chars spacing depth value ++ rest).dropWhile dialect.isBlank =
      chars spacing depth value ++ rest :=
  @Spacing.Skipped.dropWhile_append _ _ skipped [] _ (by simp)
    ((begins_chars spacing depth value).append rest).printed

theorem readFirst_append (distinct : value.Distinct) :
    readFirst dialect (append spacing 0 "" value).toList =
      (accept dialect value).map fun _ => (value, []) := by
  have begins := dropWhile_chars skipped 0 value []
  have enough : (chars spacing 0 value).length ≤ fuelFor (chars spacing 0 value) := by
    rw [fuelFor]
    omega
  have reads := readValue_chars skipped value 0 _ [] distinct enough (by rintro c ⟨⟩)
  rw [List.append_nil] at begins reads
  rw [toList_append, String.toList_empty, List.nil_append, readFirst, begins]
  exact reads

theorem read_append (distinct : value.Distinct) :
    read dialect (append spacing 0 "" value).toList =
      (accept dialect value).map fun _ => value := by
  rw [read, readFirst_append skipped distinct]
  cases accept dialect value <;> rfl

end

def indentation : Spacing where
  lineBreak depth := "\n" ++ String.ofList (List.replicate (2 * depth) ' ')
  colon := ": "

theorem indented_eq (value : Json) : indented value = append indentation 0 "" value := rfl

theorem indentation_skipped {dialect : Dialect}
    (printed : ∀ c, dialect.isBlank c = true → c.toNat ≤ 0x20)
    (blank : dialect.isBlank ' ' = true) (line : dialect.isBlank '\n' = true) :
    indentation.Skipped dialect where
  printed := printed
  lineBreak depth c member := by
    simp only [indentation, String.toList_append, String.toList_ofList, List.mem_append] at member
    rcases member with first | space
    · obtain rfl : c = '\n' := by simpa using first
      exact line
    · rw [List.eq_of_mem_replicate space]
      exact blank
  colon := ⟨[' '], rfl, by simpa using blank⟩

theorem skipped_narrow : indentation.Skipped .narrow := by
  refine indentation_skipped (fun c space => ?_) (by decide) (by decide)
  simp only [Dialect.narrow, Bool.or_eq_true, beq_iff_eq, Bool.and_eq_true,
    decide_eq_true_eq] at space
  rcases space with rfl | control
  · decide
  · omega

theorem skipped_wide : indentation.Skipped .wide := by
  refine indentation_skipped (fun c space => ?_) (by decide) (by decide)
  simp only [Dialect.wide, Bool.or_eq_true, beq_iff_eq] at space
  rcases space with ((rfl | rfl) | rfl) | rfl <;> decide

end CallTimeline.Json
