import CallTimeline.Fault
import CallTimeline.Json.Display

namespace CallTimeline.Json

def refusal (text : String) : Number.Refusal → Fault
  | .malformed => .notInteger text
  | .tooLong digits => .tooManyDigits digits

/-- A whole number: truth values count as one and zero, a double loses its fraction, a text is
read. -/
def toInt : Json → Except Fault Int
  | int value => .ok value
  | bool value => .ok (if value then 1 else 0)
  | real value =>
    match Double.shape value with
    | .nan => .error .nanAsInteger
    | .infinite _ => .error .infinityAsInteger
    | .finite .. => .ok ((Double.truncate? value).getD 0)
  | str text => (Number.integer text.toList).mapError (refusal text)
  | value => .error (.mismatch
      ("int() argument must be a string, a bytes-like object or a real number, not '" ++
        value.kind ++ "'"))

def realOfInt (value : Int) : Except Fault Float :=
  let x := Double.ofInt value
  if Double.isFinite x then .ok x else .error .integerAsReal

def toReal : Json → Except Fault Float
  | int value => realOfInt value
  | bool value => .ok (Double.ofInt (if value then 1 else 0))
  | real value => .ok value
  | str text =>
    match Number.real? text.toList with
    | some x => .ok x
    | none => .error (.notReal text)
  | value => .error (.mismatch
      ("float() argument must be a string or a real number, not '" ++ value.kind ++ "'"))

def field (value : Json) (key : String) : Except Fault Json :=
  match value with
  | obj fields =>
    match fields.lookup key with
    | some value => .ok value
    | none => .error (.missingField key)
  | str _ => .error (.mismatch "string indices must be integers, not 'str'")
  | arr _ => .error (.mismatch "list indices must be integers or slices, not str")
  | value => .error (.mismatch ("'" ++ value.kind ++ "' object is not subscriptable"))

def fields (value : Json) : Except Fault Fields :=
  match value with
  | obj fields => .ok fields
  | value => .error (.noOperation value.kind "get")

def fieldD (value : Json) (key : String) (default : Json) : Except Fault Json := do
  let fields ← value.fields
  return (fields.get? key).getD default

def notIterable (value : Json) : Fault :=
  .mismatch ("'" ++ value.kind ++ "' object is not iterable")

/-- The parts of a value: the items of a list, the keys of an object, the characters of a text. -/
def parts? : Json → Option (List Json)
  | arr items => some items
  | obj fields => some (fields.map fun entry => str entry.1)
  | str text => some (text.toList.map fun c => str (String.singleton c))
  | _ => none

def parts (value : Json) : Except Fault (List Json) :=
  match value.parts? with
  | some parts => .ok parts
  | none => .error value.notIterable

/-- The text of a table key, as it is written. A key that is a number, a truth value or `null` is not
kept apart from the text that it is written as. -/
def keyText : Json → String
  | str text => text
  | null => "null"
  | bool value => if value then "true" else "false"
  | value => value.display

def checkName (value : Json) : Except Fault Unit :=
  match value with
  | arr _ | obj _ => .error (.mismatch ("unhashable type: '" ++ value.kind ++ "'"))
  | _ => .ok ()

def tableRow (row : Nat) (value : Json) : Except Fault (String × Json) :=
  match value.parts? with
  | none => .error (.mismatch
      ("cannot convert dictionary update sequence element #" ++ toString row ++ " to a sequence"))
  | some [key, value] => do
    key.checkName
    return (key.keyText, value)
  | some parts => .error (.rowLength row parts.length)

def hasTextKeys (value : Json) : Bool :=
  match value with
  | obj _ => true
  | value => (value.parts?.getD []).all fun row =>
    match row.parts? with
    | some (str _ :: _) => true
    | _ => false

/-- The fields of a value that is an object or a sequence of rows. Rows with the keys `1` and `"1"`
come to one field here, since both are written alike, where a table of values would keep them apart;
rows with the keys `1`, `1.0` and `true` come to three, where such a table has one. Keys that are not
text occur in source information only that is a sequence of rows (`hasTextKeys`). -/
def table (value : Json) : Except Fault Fields :=
  match value with
  | obj fields => .ok fields
  | value => do
    let rows ← (← value.parts).zipIdx.mapM fun (part, row) => tableRow row part
    return Fields.ofPairs rows

end CallTimeline.Json
