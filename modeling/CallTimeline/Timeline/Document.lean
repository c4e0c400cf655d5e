import CallTimeline.Annotation.Merge
import CallTimeline.Json.Stream
import CallTimeline.Text.Utf8

/-!
# Timeline documents in files

A file holds a document with a list of entries, or the list alone. Entries can be taken one after
the other while the file is read, or from the document as a whole.
-/

namespace CallTimeline.Document

/-- The text of a file. A stretch that is no UTF-8 is read as a character that no document may
hold. -/
def textOf (bytes : List UInt8) : List Char :=
  (Text.Utf8.decode bytes).map (·.getD '\x00')

def isListText (text : List Char) : Bool :=
  (text.dropWhile Json.Dialect.narrow.isBlank).head? == some '['

def entriesPath (text : List Char) : String :=
  if isListText text then "item" else "timeline.item"

/-- The entries that a reader meets, and the fault that ends the reading early. -/
def entries (text : List Char) : List Json × Option Fault :=
  let (found, refusal) := Json.stream .narrow (entriesPath text) text
  (found, refusal.map fun _ => .notJson)

def allEntries (text : List Char) : Except Fault (List Json) :=
  match entries text with
  | (found, none) => .ok found
  | (_, some fault) => .error fault

def addName (names : List Json) (entry : Json) : Except Fault (List Json) := do
  let name := Merge.nameOf (← entry.fields)
  if name.isTruthy then
    name.checkName
    return if names.any name.sameName then names else name :: names
  else return names

def functionNames (text : List Char) : Except Fault (List Json) := do
  let (found, fault) := entries text
  -- An entry without fields stops the reading before what is wrong behind it.
  let names ← found.foldlM addName []
  match fault with
  | some fault => throw fault
  | none => return names.reverse

def load (path : String) (text : List Char) : Except Fault Json :=
  if isListText text then
    (allEntries text).map fun found => .obj [("metadata", .obj []), ("timeline", .arr found)]
  else
    -- What stands behind the document is not looked at.
    match Json.readFirst .narrow text with
    | .error _ => .error .notJson
    | .ok (.obj fields, _) =>
      let add (key : String) (value : Json) (fields : Json.Fields) : Json.Fields :=
        if fields.has key then fields else fields.set key value
      .ok (.obj (add "timeline" (.arr []) (add "metadata" (.obj []) fields)))
    | .ok _ => .error (.notDocument path)

end CallTimeline.Document
