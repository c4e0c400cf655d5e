import CallTimeline.Source.Location
import CallTimeline.Timeline.Entry

/-!
# Merging locations into a timeline

Merging replaces the file and the line of every entry and every frame whose function has a
location, and nothing else. It works on entries and on documents that may hold more than the
library knows of: an entry without source information has its own file and line.
-/

namespace CallTimeline

open Source

def Entry.withLocations (locations : Locations) (entry : Entry) : Except Fault Entry := do
  let stack ← entry.stack.mapM fun frame => do
    match ← locations.lookup frame.function with
    | some location => return { frame with file := location.file, line := location.line }
    | none => return frame
  match ← locations.lookup entry.function with
  | some location => return { entry with stack, file := location.file, line := location.line }
  | none => return { entry with stack }

namespace Merge

def nameOf (fields : Json.Fields) : Json :=
  let function := (fields.get? "function").getD .null
  if function.isTruthy then function else (fields.get? "func").getD .null

def place (location : Location) (fields : Json.Fields) : Json.Fields :=
  (fields.set "file" location.file).set "line" (.int location.line)

def frame (locations : Locations) (value : Json) : Except Fault Json := do
  let fields ← value.fields
  match ← locations.lookup ((fields.get? "function").getD .null) with
  | some location => return .obj (place location fields)
  | none => return value

def level (locations : Locations) (fields : Json.Fields) : Except Fault Json.Fields := do
  match ← locations.lookup (nameOf fields) with
  | none => return fields
  | some location =>
    match fields.get? "source_info" with
    | some info => return fields.set "source_info" (.obj (place location (← info.table)))
    | none => return place location fields

def entry (locations : Locations) (value : Json) : Except Fault Json := do
  let _ ← value.table
  let fields ← value.fields
  let merged ← level locations fields
  match fields.get? "call_stack" with
  | some stack =>
    let frames ← (← stack.parts).mapM (frame locations)
    return .obj (merged.set "call_stack" (.arr frames))
  | none => return .obj merged

def document (locations : Locations) (value : Json) : Except Fault Json := do
  let _ ← value.table
  let fields ← value.fields
  let entries ← ((fields.get? "timeline").getD (.arr [])).parts
  return .obj (fields.set "timeline" (.arr (← entries.mapM (entry locations))))

end Merge

end CallTimeline
