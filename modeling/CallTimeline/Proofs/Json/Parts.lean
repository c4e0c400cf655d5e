import CallTimeline.Json.Convert
import CallTimeline.Proofs.Json.Scalars
import CallTimeline.Proofs.Results

namespace CallTimeline.Json

/-! ## Words and numbers -/

def wholePart (text : List Char) : List Char × Rest :=
  match text with
  | '0' :: rest => (['0'], rest)
  | _ => digits text

theorem readNumber_eq_readBehind (dialect : Dialect) (negative : Bool) (text : List Char) :
    readNumber dialect negative text =
      if (wholePart text).1.isEmpty then malformed
      else readBehind dialect negative (wholePart text).1 (wholePart text).2 := rfl

def plainWords : List (String × Json) :=
  [("null", .null), ("true", .bool true), ("false", .bool false)]

def specialWords : List (String × Json) :=
  [("NaN", .real Double.nan), ("Infinity", .real (Double.infinity false)),
    ("-Infinity", .real (Double.infinity true))]

def wordAt? (words : List (String × Json)) (text : List Char) : Option (Json × Rest) :=
  words.findSome? fun (word, value) =>
    (word.toList.isPrefixOf? text).map fun rest => (value, rest)

def readSigned (dialect : Dialect) (text : List Char) : Reading Json :=
  match text with
  | '-' :: rest => readNumber dialect true rest
  | _ => readNumber dialect false text

theorem readWord_eq (dialect : Dialect) (text : List Char) :
    readWord dialect text =
      match (wordAt? plainWords text).or
        (if dialect.nonFinite then wordAt? specialWords text else none) with
      | some reading => .ok reading
      | none => readSigned dialect text := by
  unfold readWord
  cases dialect.nonFinite with
  | false => simp only [Bool.false_eq_true, if_false, List.append_nil, Option.or_none]; rfl
  | true => simp only [if_true, List.findSome?_append]; rfl

theorem exists_of_wordAt? {words : List (String × Json)} {text : List Char}
    {reading : Json × Rest} (found : wordAt? words text = some reading) :
    ∃ entry ∈ words, text = entry.1.toList ++ reading.2 ∧ reading.1 = entry.2 := by
  obtain ⟨entry, member, same⟩ := List.exists_of_findSome?_eq_some found
  obtain ⟨rest, behind, rfl⟩ := Option.map_eq_some_iff.mp same
  exact ⟨entry, member, (List.append_eq_of_isPrefixOf?_eq_some behind).symm, rfl⟩

theorem readSigned_specialWord (dialect : Dialect) {text : List Char} {reading : Json × Rest}
    (found : wordAt? specialWords text = some reading) : readSigned dialect text = malformed := by
  obtain ⟨entry, member, rfl, -⟩ := exists_of_wordAt? found
  simp only [specialWords, List.mem_cons, List.not_mem_nil, or_false] at member
  rcases member with rfl | rfl | rfl
  · exact @readNumber_of_head dialect ("aN".toList ++ reading.2) 'N' false rfl
  · exact @readNumber_of_head dialect ("nfinity".toList ++ reading.2) 'I' false rfl
  · exact @readNumber_of_head dialect ("nfinity".toList ++ reading.2) 'I' true rfl

theorem parts?_of_readNumber {dialect : Dialect} {negative : Bool} {text : List Char}
    {value : Json} {rest : Rest} (reads : readNumber dialect negative text = .ok (value, rest)) :
    value.parts? = none := by
  rw [readNumber_eq_readBehind, readBehind] at reads
  simp only at reads
  split at reads
  case isTrue => cases reads
  case isFalse =>
    split at reads
    case isTrue =>
      split at reads
      case isTrue => cases reads
      case isFalse =>
        split at reads
        case isTrue => cases reads
        case isFalse =>
          cases reads
          rfl
    case isFalse =>
      split at reads
      case isTrue => cases reads
      case isFalse =>
        cases reads
        rfl

theorem parts?_of_wordAt? {words : List (String × Json)} {text : List Char} {reading : Json × Rest}
    (scalars : ∀ entry ∈ words, entry.2.parts? = none)
    (found : wordAt? words text = some reading) : reading.1.parts? = none := by
  obtain ⟨entry, member, -, same⟩ := exists_of_wordAt? found
  rw [same]
  exact scalars entry member

theorem parts?_of_readWord {dialect : Dialect} {text : List Char} {value : Json} {rest : Rest}
    (reads : readWord dialect text = .ok (value, rest)) : value.parts? = none := by
  rw [readWord_eq] at reads
  split at reads
  case h_1 reading found =>
    cases reads
    obtain plain | ⟨-, special⟩ := Option.or_eq_some_iff.mp found
    · exact parts?_of_wordAt? (by simp [plainWords, parts?]) plain
    · split at special
      case isTrue => exact parts?_of_wordAt? (by simp [specialWords, parts?]) special
      case isFalse => cases special
  case h_2 =>
    unfold readSigned at reads
    split at reads
    case h_1 => exact parts?_of_readNumber reads
    case h_2 => exact parts?_of_readNumber reads

/-! ## The parts of lists and objects -/

section

variable (dialect : Dialect)

/-- The items of a list from the next one on. -/
def itemsFrom (fuel : Nat) (text : List Char) : Reading (List Json) :=
  match fuel with
  | 0 => malformed
  | fuel + 1 =>
    match readValue dialect fuel text with
    | .error refusal => .error refusal
    | .ok (value, rest) =>
      match rest.dropWhile dialect.isBlank with
      | ',' :: rest =>
        (itemsFrom fuel (rest.dropWhile dialect.isBlank)).map fun (items, rest) =>
          (value :: items, rest)
      | ']' :: rest => .ok ([value], rest)
      | _ => malformed

def fieldsFrom (fuel : Nat) (text : List Char) : Reading Fields :=
  match fuel with
  | 0 => malformed
  | fuel + 1 =>
    match readKey dialect text with
    | .error refusal => .error refusal
    | .ok (key, rest) =>
      match readValue dialect fuel rest with
      | .error refusal => .error refusal
      | .ok (value, rest) =>
        match rest.dropWhile dialect.isBlank with
        | ',' :: rest =>
          (fieldsFrom fuel (rest.dropWhile dialect.isBlank)).map fun (fields, rest) =>
            ((key, value) :: fields, rest)
        | '\x7d' :: rest => .ok ([(key, value)], rest)
        | _ => malformed

def listBody (fuel : Nat) (text : List Char) : Reading (List Json) :=
  match text.dropWhile dialect.isBlank with
  | ']' :: rest => .ok ([], rest)
  | rest => itemsFrom dialect fuel rest

def objectBody (fuel : Nat) (text : List Char) : Reading Fields :=
  match text.dropWhile dialect.isBlank with
  | '\x7d' :: rest => .ok ([], rest)
  | rest => fieldsFrom dialect fuel rest

variable {dialect}

theorem itemsFrom_eq_ok {fuel : Nat} {text : List Char} {items : List Json} {rest : Rest} :
    itemsFrom dialect (fuel + 1) text = .ok (items, rest) ↔
      ∃ value behind, readValue dialect fuel text = .ok (value, behind) ∧
        (behind.dropWhile dialect.isBlank = ']' :: rest ∧ items = [value] ∨
          ∃ tail more, behind.dropWhile dialect.isBlank = ',' :: tail ∧
            itemsFrom dialect fuel (tail.dropWhile dialect.isBlank) = .ok (more, rest) ∧
              items = value :: more) := by
  rw [itemsFrom]
  constructor
  · intro reads
    split at reads
    case h_1 => cases reads
    case h_2 value behind first =>
      refine ⟨value, behind, first, ?_⟩
      split at reads
      case h_1 tail comma =>
        obtain ⟨⟨more, _⟩, next, same⟩ := of_map_ok reads
        cases same
        exact .inr ⟨tail, more, comma, next, rfl⟩
      case h_2 tail closes =>
        cases reads
        exact .inl ⟨closes, rfl⟩
      case h_3 => cases reads
  · rintro ⟨value, behind, first, ⟨closes, rfl⟩ | ⟨tail, more, comma, next, rfl⟩⟩
    · simp only [first, closes]
    · simp only [first, comma, next, Except.map]

theorem fieldsFrom_eq_ok {fuel : Nat} {text : List Char} {fields : Fields} {rest : Rest} :
    fieldsFrom dialect (fuel + 1) text = .ok (fields, rest) ↔
      ∃ key own, readKey dialect text = .ok (key, own) ∧
        ∃ value behind, readValue dialect fuel own = .ok (value, behind) ∧
          (behind.dropWhile dialect.isBlank = '\x7d' :: rest ∧ fields = [(key, value)] ∨
            ∃ tail more, behind.dropWhile dialect.isBlank = ',' :: tail ∧
              fieldsFrom dialect fuel (tail.dropWhile dialect.isBlank) = .ok (more, rest) ∧
                fields = (key, value) :: more) := by
  rw [fieldsFrom]
  constructor
  · intro reads
    split at reads
    case h_1 => cases reads
    case h_2 key own name =>
      refine ⟨key, own, name, ?_⟩
      split at reads
      case h_1 => cases reads
      case h_2 value behind first =>
        refine ⟨value, behind, first, ?_⟩
        split at reads
        case h_1 tail comma =>
          obtain ⟨⟨more, _⟩, next, same⟩ := of_map_ok reads
          cases same
          exact .inr ⟨tail, more, comma, next, rfl⟩
        case h_2 tail closes =>
          cases reads
          exact .inl ⟨closes, rfl⟩
        case h_3 => cases reads
  · rintro ⟨key, own, name, value, behind, first,
      ⟨closes, rfl⟩ | ⟨tail, more, comma, next, rfl⟩⟩
    · simp only [name, first, closes]
    · simp only [name, first, comma, next, Except.map]

theorem readItems_eq (fuel : Nat) (done : List Json) (text : List Char) :
    readItems dialect fuel done text =
      (itemsFrom dialect fuel text).map fun (items, rest) =>
        (.arr (done.reverse ++ items), rest) := by
  induction fuel generalizing done text with
  | zero => rfl
  | succ fuel ih =>
      rw [readItems, itemsFrom]
      cases readValue dialect fuel text with
      | error refusal => rfl
      | ok reading =>
          obtain ⟨value, rest⟩ := reading
          simp only
          generalize rest.dropWhile dialect.isBlank = behind
          split
          case h_1 rest =>
            simp only [ih]
            cases itemsFrom dialect fuel (rest.dropWhile dialect.isBlank) <;> simp [Except.map]
          case h_2 => simp [Except.map]
          case h_3 => simp [malformed, Except.map]

theorem readFields_eq (fuel : Nat) (done : Fields) (text : List Char) :
    readFields dialect fuel done text =
      (fieldsFrom dialect fuel text).map fun (fields, rest) =>
        (.obj (Fields.ofPairs (done.reverse ++ fields)), rest) := by
  induction fuel generalizing done text with
  | zero => rfl
  | succ fuel ih =>
      rw [readFields, fieldsFrom]
      cases readKey dialect text with
      | error refusal => rfl
      | ok name =>
          obtain ⟨key, rest⟩ := name
          simp only
          cases readValue dialect fuel rest with
          | error refusal => rfl
          | ok reading =>
              obtain ⟨value, rest⟩ := reading
              simp only
              generalize rest.dropWhile dialect.isBlank = behind
              split
              case h_1 rest =>
                simp only [ih]
                cases fieldsFrom dialect fuel (rest.dropWhile dialect.isBlank) <;> simp [Except.map]
              case h_2 => simp [Except.map]
              case h_3 => simp [malformed, Except.map]

theorem readValue_quote (fuel : Nat) (text : List Char) :
    readValue dialect (fuel + 1) ('"' :: text) =
      (readString [] text).map fun (value, rest) => (.str value, rest) := by
  rw [readValue]
  cases readString [] text <;> rfl

theorem readValue_bracket (fuel : Nat) (text : List Char) :
    readValue dialect (fuel + 1) ('[' :: text) =
      (listBody dialect fuel text).map fun (items, rest) => (.arr items, rest) := by
  rw [readValue, listBody]
  generalize text.dropWhile dialect.isBlank = behind
  split
  case h_1 => rfl
  case h_2 => rw [readItems_eq]; simp

theorem readValue_brace (fuel : Nat) (text : List Char) :
    readValue dialect (fuel + 1) ('\x7b' :: text) =
      (objectBody dialect fuel text).map fun (fields, rest) =>
        (.obj (Fields.ofPairs fields), rest) := by
  rw [readValue, objectBody]
  generalize text.dropWhile dialect.isBlank = behind
  split
  case h_1 => rfl
  case h_2 => rw [readFields_eq]; simp

theorem readValue_other {fuel : Nat} {c : Char} {text : List Char}
    (other : c ∉ ['"', '[', '\x7b']) :
    readValue dialect (fuel + 1) (c :: text) = readWord dialect (c :: text) := by
  simp only [List.mem_cons, List.not_mem_nil, or_false, not_or] at other
  obtain ⟨quote, bracket, brace⟩ := other
  rw [readValue]
  · rintro ⟨⟩
  · rintro _ ⟨⟩
    exact quote rfl
  · rintro _ ⟨⟩
    exact bracket rfl
  · rintro _ ⟨⟩
    exact brace rfl

section

variable {fuel : Nat} {text rest : List Char}

theorem listBody_closed (closes : text.dropWhile dialect.isBlank = ']' :: rest) :
    listBody dialect fuel text = .ok ([], rest) := by
  simp only [listBody, closes]

theorem listBody_open (goesOn : ∀ rest, text.dropWhile dialect.isBlank ≠ ']' :: rest) :
    listBody dialect fuel text = itemsFrom dialect fuel (text.dropWhile dialect.isBlank) := by
  rw [listBody]
  split
  case h_1 closes => exact absurd closes (goesOn _)
  case h_2 => rfl

theorem objectBody_closed (closes : text.dropWhile dialect.isBlank = '\x7d' :: rest) :
    objectBody dialect fuel text = .ok ([], rest) := by
  simp only [objectBody, closes]

theorem objectBody_open (goesOn : ∀ rest, text.dropWhile dialect.isBlank ≠ '\x7d' :: rest) :
    objectBody dialect fuel text = fieldsFrom dialect fuel (text.dropWhile dialect.isBlank) := by
  rw [objectBody]
  split
  case h_1 closes => exact absurd closes (goesOn _)
  case h_2 => rfl

end

theorem of_readValue {fuel : Nat} {text : List Char} {value : Json} {rest : Rest}
    (reads : readValue dialect fuel text = .ok (value, rest)) :
    ∃ steps c tail, fuel = steps + 1 ∧ text = c :: tail ∧
      ((c = '"' ∧ ∃ string, readString [] tail = .ok (string, rest) ∧ value = .str string) ∨
        (c = '[' ∧ ∃ items, listBody dialect steps tail = .ok (items, rest) ∧ value = .arr items) ∨
        (c = '\x7b' ∧ ∃ fields, objectBody dialect steps tail = .ok (fields, rest) ∧
          value = .obj (Fields.ofPairs fields)) ∨
        c ∉ ['"', '[', '\x7b'] ∧ readWord dialect text = .ok (value, rest)) := by
  cases fuel with
  | zero =>
      unfold readValue at reads
      cases reads
  | succ steps =>
      cases text with
      | nil =>
          unfold readValue at reads
          cases reads
      | cons c tail =>
          refine ⟨steps, c, tail, rfl, rfl, ?_⟩
          by_cases other : c ∉ ['"', '[', '\x7b']
          · rw [readValue_other other] at reads
            exact .inr (.inr (.inr ⟨other, reads⟩))
          · simp only [List.mem_cons, List.not_mem_nil, or_false, not_not] at other
            rcases other with rfl | rfl | rfl
            · rw [readValue_quote] at reads
              obtain ⟨⟨string, _⟩, inside, same⟩ := of_map_ok reads
              cases same
              exact .inl ⟨rfl, string, inside, rfl⟩
            · rw [readValue_bracket] at reads
              obtain ⟨⟨items, _⟩, inside, same⟩ := of_map_ok reads
              cases same
              exact .inr (.inl ⟨rfl, items, inside, rfl⟩)
            · rw [readValue_brace] at reads
              obtain ⟨⟨fields, _⟩, inside, same⟩ := of_map_ok reads
              cases same
              exact .inr (.inr (.inl ⟨rfl, fields, inside, rfl⟩))

theorem listBody_of_readValue {fuel : Nat} {text : List Char} {items : List Json} {rest : Rest}
    (reads : readValue dialect fuel text = .ok (.arr items, rest)) :
    ∃ steps tail, fuel = steps + 1 ∧ text = '[' :: tail ∧
      listBody dialect steps tail = .ok (items, rest) := by
  obtain ⟨steps, c, tail, rfl, rfl, kind⟩ := of_readValue reads
  obtain ⟨-, string, -, same⟩ | ⟨rfl, items', inside, same⟩ | ⟨-, fields, -, same⟩ |
    ⟨-, word⟩ := kind
  · cases same
  · cases same
    exact ⟨steps, tail, rfl, rfl, inside⟩
  · cases same
  · cases parts?_of_readWord word

theorem objectBody_of_readValue {fuel : Nat} {text : List Char} {fields : Fields} {rest : Rest}
    (reads : readValue dialect fuel text = .ok (.obj fields, rest)) :
    ∃ steps tail written, fuel = steps + 1 ∧ text = '\x7b' :: tail ∧
      objectBody dialect steps tail = .ok (written, rest) ∧ fields = Fields.ofPairs written := by
  obtain ⟨steps, c, tail, rfl, rfl, kind⟩ := of_readValue reads
  obtain ⟨-, string, -, same⟩ | ⟨-, items, -, same⟩ | ⟨rfl, written, inside, same⟩ |
    ⟨-, word⟩ := kind
  · cases same
  · cases same
  · cases same
    exact ⟨steps, tail, written, rfl, rfl, inside, rfl⟩
  · cases parts?_of_readWord word

end

def writtenFields (dialect : Dialect) (text : List Char) : Except Number.Refusal Fields :=
  match text.dropWhile dialect.isBlank with
  | '\x7b' :: tail => do
    let (fields, rest) ← objectBody dialect (fuelFor ('\x7b' :: tail) - 1) tail
    if rest.all dialect.isBlank then return fields else malformed
  | _ => malformed

theorem writtenFields_eq_ok {dialect : Dialect} {text : List Char} {fields : Fields} :
    writtenFields dialect text = .ok fields ↔
      ∃ tail rest, text.dropWhile dialect.isBlank = '\x7b' :: tail ∧
        objectBody dialect (fuelFor ('\x7b' :: tail) - 1) tail = .ok (fields, rest) ∧
          rest.all dialect.isBlank = true := by
  rw [writtenFields]
  constructor
  · intro written
    split at written
    case h_1 tail begins =>
      obtain ⟨⟨fields', rest⟩, inside, written⟩ := of_bind_ok written
      dsimp only at written
      split at written
      case isTrue blank =>
        cases written
        exact ⟨tail, rest, begins, inside, blank⟩
      case isFalse => cases written
    case h_2 => cases written
  · rintro ⟨tail, rest, begins, inside, blank⟩
    rw [begins]
    simp only [inside]
    exact if_pos blank

theorem read_eq_ok {dialect : Dialect} {text : List Char} {value : Json} :
    read dialect text = .ok value ↔
      ∃ rest, readFirst dialect text = .ok (value, rest) ∧ rest.all dialect.isBlank = true := by
  rw [read, bind_eq_ok]
  constructor
  · rintro ⟨⟨value', rest⟩, first, ends⟩
    dsimp only at ends
    split at ends
    case isTrue blank =>
      cases ends
      exact ⟨rest, first, blank⟩
    case isFalse => cases ends
  · rintro ⟨rest, first, blank⟩
    exact ⟨(value, rest), first, if_pos blank⟩

theorem read_eq_obj {dialect : Dialect} {text : List Char} {fields : Fields} :
    read dialect text = .ok (.obj fields) ↔
      ∃ written, writtenFields dialect text = .ok written ∧ fields = Fields.ofPairs written := by
  simp only [read_eq_ok, writtenFields_eq_ok]
  constructor
  · rintro ⟨rest, first, blank⟩
    obtain ⟨steps, tail, written, fuel, begins, inside, rfl⟩ := objectBody_of_readValue first
    refine ⟨written, ⟨tail, rest, begins, ?_, blank⟩, rfl⟩
    rw [← begins, fuel, Nat.add_sub_cancel]
    exact inside
  · rintro ⟨written, ⟨tail, rest, begins, inside, blank⟩, rfl⟩
    refine ⟨rest, ?_, blank⟩
    rw [readFirst, begins]
    have brace := @readValue_brace dialect (fuelFor ('\x7b' :: tail) - 1) tail
    rw [inside] at brace
    exact brace

end CallTimeline.Json
