import CallTimeline.Json.Name
import CallTimeline.Source.Body
import CallTimeline.Timeline.Entry

namespace CallTimeline.Source

inductive Status where
  | resolved
  | unresolved
  | timedOut
deriving Repr, DecidableEq

namespace Status

def word : Status → String
  | resolved => "resolved"
  | unresolved => "unresolved"
  | timedOut => "timed_out"

def all : List Status := [resolved, unresolved, timedOut]

def ofJson : Json → Except Fault Status :=
  Json.toWord "ResolutionStatus" word all

end Status

def BodyStatus.ofJson : Json → Except Fault BodyStatus :=
  Json.toWord "BodyStatus" word all

/-- Fields that no rule constrains keep the value with which they were written. -/
structure Location where
  function : Json
  file : Json
  line : Int
  text : Json
  lineCount : Int
  candidates : List (Json × Int)
  status : Status
  bodyStatus : BodyStatus
deriving Repr

namespace Location

def isResolved (location : Location) : Bool :=
  location.status == .resolved

def toJson (location : Location) : Json :=
  .obj [("file", location.file), ("line", .int location.line), ("source", location.text),
    ("line_count", .int location.lineCount),
    ("all_matches", .arr (location.candidates.map fun (file, line) => .arr [file, .int line])),
    ("status", .str location.status.word), ("body_status", .str location.bodyStatus.word)]

def candidate (value : Json) : Except Fault (Json × Int) :=
  match value.parts? with
  | none => .error (.mismatch ("cannot unpack non-iterable " ++ value.kind ++ " object"))
  | some [file, line] => do return (file, ← line.toInt)
  | some parts =>
    .error (if parts.length < 2 then .tooFewParts 2 parts.length else .tooManyParts)

/-- Reads a record. Of several faults the one of the first field counts, in the order of the fields
below. -/
def ofJson (function record : Json) : Except Fault Location := do
  return {
    function
    file := ← record.field "file"
    line := ← (← record.field "line").toInt
    text := ← record.fieldD "source" (.str "")
    lineCount := ← (← record.fieldD "line_count" (.int 0)).toInt
    candidates := ← (← (← record.fieldD "all_matches" (.arr [])).parts).mapM candidate
    status := ← Status.ofJson (← record.fieldD "status" (.str Status.resolved.word))
    bodyStatus := ← BodyStatus.ofJson
      (← record.fieldD "body_status" (.str BodyStatus.complete.word)) }

def placeholderLine : Int := 1000

def reason : Status → String
  | .timedOut => "// Search timed out before a definition was found\n"
  | _ => "// This may be an inline function or macro\n"

def placeholder (function : Json) (status : Status) : Location where
  function
  file := .str ("unknown/" ++ function.display ++ ".c")
  line := placeholderLine
  text := .str ("// Function " ++ function.display ++ " not found in kernel source\n" ++
    reason status)
  lineCount := 2
  candidates := []
  status
  bodyStatus := .none

def lastLine (location : Location) : Int :=
  location.line + max location.lineCount 1 - 1

end Location

abbrev Locations := List (Json × Location)

namespace Locations

def find? (locations : Locations) (name : Json) : Option Location :=
  (List.find? (fun entry => entry.1.sameName name) locations).map (·.2)

def lookup (locations : Locations) (name : Json) : Except Fault (Option Location) := do
  name.checkName
  return locations.find? name

def set (locations : Locations) (name : Json) (location : Location) : Locations :=
  match locations with
  | [] => [(name, location)]
  | entry :: rest =>
    if entry.1.sameName name then (entry.1, location) :: rest else entry :: set rest name location

def toJson (locations : Locations) : Except Fault Json := do
  let sorted ← Json.sortByName locations
  return .obj (sorted.map fun (name, location) => (name.keyText, location.toJson))

def ofFields (fields : Json.Fields) : Except Fault Locations :=
  fields.mapM fun (name, record) => do return (.str name, ← Location.ofJson (.str name) record)

def count (locations : Locations) (status : Status) : Nat :=
  locations.countP (·.2.status == status)

def unresolved (locations : Locations) : Except Fault (List Json) := do
  let names := (locations.filter (!·.2.isResolved)).map fun entry => (entry.1, ())
  return (← Json.sortByName names).map (·.1)

def summary (locations : Locations) : Except Fault Json := do
  return .obj [("total_functions", .int locations.length),
    ("counts", .obj (Status.all.map fun status =>
      (status.word, .int (locations.count status)))),
    ("unresolved", .arr (← locations.unresolved))]

end Locations

end CallTimeline.Source
