import CallTimeline.Archive
import CallTimeline.Kernel.Release
import CallTimeline.Source.Batch
import CallTimeline.Timeline.Document

namespace CallTimeline.Workflow

open Source

structure Annotator where
  sourceRoot : String
  settings : Settings := {}
  /-- Empty for a directory named after the time. -/
  outputDirectory : String := ""

def progressLine (report : Report) : String :=
  let location := report.resolution.location
  "  [" ++ toString report.done ++ "/" ++ toString report.total ++ "] " ++
    location.function.display ++ ": " ++
    (if location.isResolved then
      location.file.display ++ ":" ++ toString location.line ++ " (" ++
        toString location.lineCount ++ " lines)"
    else location.status.word)

def Annotator.resolve (annotator : Annotator) (names : List Json) : Work Locations := do
  for name in names do name.checkName
  Work.print ("Extracting source for " ++ toString (Json.distinctNames names).length ++
    " functions from " ++ annotator.sourceRoot ++ "...")
  let host ← Work.host
  let root := Root.of (← Work.tree) annotator.sourceRoot
  let resolutions ← resolveAll annotator.settings root host.processors names
  for report in reports resolutions do
    match report.resolution.complaintLine? with
    | some line => Work.print line
    | none => pure ()
    Work.print (progressLine report)
  let locations := locationsOf resolutions
  modify fun session => { session with locations }
  -- What is missing is put in order here already, which names of several kinds cannot be.
  let _ ← locations.unresolved
  Work.print ("Resolved " ++ toString (locations.count .resolved) ++ " of " ++
    toString locations.length ++ " functions in " ++ host.elapsed ++ "s")
  return locations

def documentNames (document : Json) : Except Fault (List Json) := do
  let entries ← ((← document.fields).get? "timeline" |>.getD (.arr [])).parts
  let names ← entries.mapM fun entry => do return Merge.nameOf (← entry.fields)
  return names.filter Json.isTruthy

def Annotator.document (annotator : Annotator) (document : Json) : Work Json := do
  let locations ← annotator.resolve (← documentNames document)
  Merge.document locations document

def kernelRelease (document : Json) : Except Fault Json := do
  let metadata ← document.fieldD "metadata" (.obj [])
  metadata.fieldD "kernel_version" (.str "unknown")

def seriesOf (release : Json) : Except Fault String :=
  match release with
  | .str text => .ok (Kernel.series text)
  | value => if value.isTruthy then .error (.noOperation value.kind "strip") else .ok (Kernel.series "")

structure Annotated where
  directory : String
  documents : List Stored
  sources : List String
  summary : Json

def annotationVersion : String := "1.0-production"

def Annotator.metadata (annotator : Annotator) (host : Host) (tree : FileTree) (release : Json)
    (series : String) : Json.Fields :=
  [("generated_at", .str host.now),
   ("version", .str annotationVersion),
   ("kernel_version", release),
   ("upstream_version", .str series),
   ("source_root", .str (Path.absolute tree.workingPath annotator.sourceRoot))]

def Annotator.storeDocuments (annotator : Annotator) (archive : Archive) (release merged : Json)
    (annotations : List (Json × Annotation)) (locations : Locations) : Work (List Stored) := do
  let database ← archive.writeDatabase locations
  let timeline ← archive.writeTimeline Archive.annotatedFile merged
  -- A release without a series shows here, when two documents have been written.
  let series ← seriesOf release
  let host ← Work.host
  let tree ← Work.tree
  let annotated ← archive.writeAnnotations annotations
    (annotator.metadata host tree release series)
  return [database, timeline, annotated]

def outputLines (directory : String) (documents : List Stored) (sources : List String) :
    List String :=
  ["\nOutput files in " ++ directory ++ ":"] ++
    documents.map (fun stored =>
      "  - " ++ stored.name ++ " (" ++ toString stored.size ++ " bytes)") ++
    ["  - " ++ toString sources.length ++ " individual sources (*.c)"]

def Annotator.store (annotator : Annotator) (release merged : Json)
    (annotations : List (Json × Annotation)) (locations : Locations) : Work Annotated := do
  let archive ← Archive.openAt annotator.outputDirectory
  let documents ← annotator.storeDocuments archive release merged annotations locations
  let sources ← archive.writeSources locations
  let directory := archive.directory.text
  (outputLines directory documents sources).forM Work.print
  return { directory, documents, sources, summary := ← locations.summary }

/-- Stores what comes of a document: `merged` is the document with the locations of its
functions. -/
def Annotator.publish (annotator : Annotator) (document merged : Json) (locations : Locations) :
    Work Annotated := do
  let release ← kernelRelease document
  let annotations ← Annotation.ofLocations locations
  annotator.store release merged annotations locations

def foundLine (names : List Json) (path : String) : String :=
  "Found " ++ toString names.length ++ " distinct functions in " ++ path ++ "."

def Annotator.file (annotator : Annotator) (path : String) : Work Annotated := do
  let names ← Document.functionNames (Document.textOf (← Work.contents path))
  Work.print (foundLine names path)
  let locations ← annotator.resolve names
  -- The names came from a stream over the file; the document is read from it as a whole.
  let document ← Document.load path (Document.textOf (← Work.contents path))
  let merged ← Merge.document locations document
  annotator.publish document merged locations

end CallTimeline.Workflow
