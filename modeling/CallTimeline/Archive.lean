import CallTimeline.Annotation.Layer
import CallTimeline.Json.Reader
import CallTimeline.Json.Writer
import CallTimeline.Session
import CallTimeline.Text.Lines
import CallTimeline.Text.Utf8

/-!
# The archive of produced documents

One directory holds everything that a run produces: the timeline, the function database, the
annotations and the source of each function that was found.
-/

namespace CallTimeline

open Source

structure Archive where
  directory : PlainPath

structure Stored where
  name : String
  path : String
  size : Nat

def Stored.toJson (stored : Stored) : Json :=
  .obj [("name", .str stored.name), ("path", .str stored.path), ("size_bytes", .int stored.size)]

namespace Archive

def timelineFile : String := "timeline.json"
def databaseFile : String := "function_source_db.json"
def annotatedFile : String := "timeline_with_accurate_lines.json"
def annotationFile : String := "annotation_database.json"

def defaultDirectory (host : Host) : String :=
  "annotations_" ++ host.stamp

def openAt (directory : String) : Work Archive := do
  let host ← Work.host
  let directory := PlainPath.ofText (if directory.isEmpty then defaultDirectory host else directory)
  Work.makeDirectories directory
  return { directory }

def writeDocument (archive : Archive) (name : String) (document : Json) : Work Stored := do
  let path := (archive.directory.child name).text
  let bytes := Text.Utf8.encode document.indented
  Work.store path bytes
  return { name, path, size := bytes.length }

def writeTimeline (archive : Archive) (name : String) (document : Json) : Work Stored := do
  match (← document.fields).get? "timeline" with
  | some (.arr _) => archive.writeDocument name document
  | _ => throw .noEntryList

def writeDatabase (archive : Archive) (locations : Locations) : Work Stored := do
  archive.writeDocument databaseFile (← locations.toJson)

def writeAnnotations (archive : Archive) (annotations : List (Json × Annotation))
    (metadata : Json.Fields) : Work Stored :=
  archive.writeDocument annotationFile (.obj [
    ("metadata", .obj (metadata.set "functions_count" (.int annotations.length))),
    ("annotations",
      .obj (annotations.map fun (name, note) => (name.keyText, note.toJson)))])

/-- The characters that a file name for a function may have; any other becomes an underscore. -/
def isSafe (c : Char) : Bool :=
  c.isAlphanum || c == '_' || c == '.' || c == '-'

def sourceFile (name : String) : String :=
  String.ofList (name.toList.map fun c => if isSafe c then c else '_') ++ ".c"

/-- Writes the parts of a text to a file, up to the first that is missing. -/
def writeParts (path : String) (parts : List (Except Fault String)) : Work Unit := do
  let written := parts.takeWhile (·.isOk)
  -- The file is opened before the parts are made, so what stands before a fault reaches it.
  Work.store path (Text.Utf8.encode (String.join (written.filterMap (·.toOption))))
  match parts[written.length]? with
  | some (.error fault) => throw fault
  | _ => return ()

/-- The parts of a source file: two lines that tell where the text is from, an empty line and the
text itself. -/
def sourceParts (name : String) (location : Location) : List (Except Fault String) :=
  [do
    return "// " ++ name ++ " from " ++ location.file.display ++ ":" ++
      (← integerText location.line) ++ "\n",
   do
    return "// Function definition (lines " ++ (← integerText location.line) ++ "-" ++
      (← integerText location.lastLine) ++ ")\n\n",
   match location.text with
   | .str text => .ok text
   | value => .error (.mismatch ("write() argument must be str, not " ++ value.kind))]

def sourcePath (archive : Archive) (name : String) : String :=
  (archive.directory.child (sourceFile name)).text

def writeSource (archive : Archive) : Json × Location → Work String
  | (.str name, location) => do
    writeParts (archive.sourcePath name) (sourceParts name location)
    return archive.sourcePath name
  | (value, _) =>
    throw (.mismatch ("expected string or bytes-like object, got '" ++ value.kind ++ "'"))

def writeSources (archive : Archive) (locations : Locations) : Work (List String) := do
  let sorted ← Json.sortByName locations
  (sorted.filter (·.2.isResolved)).mapM archive.writeSource

/-- The record of a database that cannot be read is a fault of the database; other faults stay as
they are. -/
def recordFault (path : String) : Fault → Fault
  | .missingField key => .invalidRecord path (.missingField key)
  | .mismatch text => .invalidRecord path (.mismatch text)
  | fault => fault

def parseDatabase (path : String) (bytes : List UInt8) : Except Fault Locations :=
  match Text.Utf8.decode? bytes with
  | none => .error .notJson
  | some text =>
    match Json.read .wide (Text.unifyLineEnds text) with
    | .error (.tooLong digits) => .error (.tooManyDigits digits)
    | .error .malformed => .error .notJson
    | .ok (.obj fields) => (Locations.ofFields fields).mapError (recordFault path)
    | .ok _ => .error (.notDatabase path)

def readDatabase (archive : Archive) (path : String) : Work Locations := do
  let path := if path.isEmpty then archive.directory.child databaseFile else PlainPath.ofText path
  parseDatabase path.text (← Work.contents path.text)

end Archive

end CallTimeline
