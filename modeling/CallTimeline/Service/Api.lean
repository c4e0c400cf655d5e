import CallTimeline.Json.Encoding
import CallTimeline.Service.Upload
import CallTimeline.Workflow.Annotate
import CallTimeline.Workflow.Build

/-!
# The web service

Builds timelines from uploaded traces, resolves functions and merges locations into timelines. An
answer is a status with a JSON body, or a status alone where the caller gets a page: for paths and
methods that the service does not have, and for faults that it does not expect.
-/

namespace CallTimeline.Service

open Source

inductive Content where
  | nothing
  | bytes (kind : String) (body : List UInt8)
  | form (fields : List (String × String)) (file : Option (String × List UInt8))

structure Request where
  method : String
  path : String
  content : Content

structure Answer where
  status : Nat
  body : Option Json

structure Site where
  /-- The path of the source tree; empty if none is set. -/
  sourceRoot : String
  uploads : String

def page (status : Nat) : Answer := { status, body := none }

def success (body : Json) : Answer := { status := 200, body := some body }

def refuse (status : Nat) (text : String) : Answer :=
  { status, body := some (.obj [("error", .str text)]) }

/-- The answer of a handler: a fault that it does not expect gives a page. -/
def guarded (handler : Work Answer) : Work Answer :=
  tryCatch handler fun _ => return page 500

def isJsonType (kind : String) : Bool :=
  let name := Text.trim (kind.toList.takeWhile (· != ';'))
  let name := name.map Char.toLower
  name == "application/json".toList ||
    ("application/".toList.isPrefixOf name && "+json".toList.isSuffixOf name)

/-- The value of a body; `null` if it is no JSON. -/
def payload (content : Content) : Json :=
  match content with
  | .bytes kind body =>
    if isJsonType kind then
      match (Json.textOf? body).map (Json.read .wide) with
      | some (.ok value) => value
      | _ => .null
    else .null
  | _ => .null

/-- The fields of a body. A body that holds nothing counts as an empty object. -/
def payloadFields (content : Content) : Except Fault Json.Fields :=
  let value := payload content
  if value.isTruthy then value.fields else .ok []

def health (site : Site) : Answer :=
  success (.obj [("status", .str "ok"),
    ("source_root", if site.sourceRoot.isEmpty then .null else .str site.sourceRoot)])

def uploadPath (site : Site) (name : String) : String :=
  Path.join site.uploads (Upload.safe name)

def timelineOfUpload (site : Site) (name release : String) (bytes : List UInt8) : Work Answer := do
  let path := uploadPath site name
  Work.store path bytes
  let timeline ← Workflow.timelineOfFile {} path
  Workflow.printReport timeline
  -- Not reached where the trace cannot be read: then the upload stays.
  Work.discard path
  return success (timeline.toJson (← Work.host).now
    [("kernel_version", .str release), ("source", .str (Upload.safe name))])

def timeline (site : Site) (content : Content) : Work Answer := do
  match content with
  | .form fields (some (name, bytes)) =>
    match Upload.sent? name with
    | none => return refuse 400 "No file provided"
    | some name =>
      if name.isEmpty then return refuse 400 "No file selected"
      else if !Upload.isTrace name then
        return refuse 400 "Invalid file type. Only .txt, .log and .trace files are allowed."
      else
        let release := (fields.lookup "kernel_version").getD "unknown"
        tryCatch (timelineOfUpload site name release bytes) fun fault =>
          return refuse 500 fault.message
  | _ => return refuse 400 "No file provided"

def isText : Json → Bool
  | .str _ => true
  | _ => false

/-- The seconds of a request; a value that is no number is refused, one beyond the doubles is not
expected. -/
def seconds (value : Json) : Except Fault (Option Float) :=
  match value.toReal with
  | .ok x => .ok (some x)
  | .error .integerAsReal => .error .integerAsReal
  | .error _ => .ok none

def defaultTimeout : Float := 10.0

def resolve (site : Site) (content : Content) : Work Answer := do
  let fields ← payloadFields content
  match fields.get? "functions" with
  | some (.arr names) =>
    if !names.all isText then return refuse 400 "'functions' must be a list of names"
    else if site.sourceRoot.isEmpty || !(← Work.tree).isDirectory site.sourceRoot then
      return refuse 400 "No kernel source tree configured (set KERNEL_SRC)"
    else
      match ← seconds ((fields.get? "timeout").getD (.real defaultTimeout)) with
      | none => return refuse 400 "'timeout' must be a number of seconds"
      | some timeout =>
        if timeout < 0.0 then return refuse 400 "'timeout' must not be negative"
        else
          let settings : Settings := { timeout := some (.real timeout), workers := some 1 }
          let root := Root.of (← Work.tree) site.sourceRoot
          let resolutions ← resolveAll settings root 1 names
          (resolutions.filterMap (·.complaintLine?)).forM Work.print
          let locations := locationsOf resolutions
          return success (.obj [("functions", ← locations.toJson),
            ("resolution", ← locations.summary)])
  | _ => return refuse 400 "'functions' must be a list of names"

def isRecordFault : Fault → Bool
  | .noOperation .. | .infinityAsInteger | .integerAsReal => false
  | _ => true

/-- Whether the fields of an entry can be put in order for the answer. Source information that is
merged has fields beside its own, whose keys may be other than text. -/
def isOrdered (locations : Locations) (entry : Json) : Bool :=
  match entry with
  | .obj fields =>
    match locations.find? (Merge.nameOf fields), fields.lookup "source_info" with
    | some _, some info => info.hasTextKeys
    | _, _ => true
  | _ => true

def merge (content : Content) : Work Answer := do
  let fields ← payloadFields content
  match fields.get? "timeline" with
  | some (.obj document) =>
    match document.lookup "timeline" with
    | some (.arr entries) =>
      match fields.get? "locations" with
      | some (.obj records) =>
        match Locations.ofFields records with
        | .ok locations =>
          let merged ← Merge.document locations (.obj document)
          return if entries.all (isOrdered locations) then success merged else page 500
        | .error fault =>
          if isRecordFault fault then
            return refuse 400 ("Invalid location record: " ++ fault.message)
          else throw fault
      | _ => return refuse 400 "'locations' must be a function database"
    | _ => return refuse 400 "'timeline' must be a timeline document"
  | _ => return refuse 400 "'timeline' must be a timeline document"

structure Route where
  methods : List String
  handler : Site → Content → Work Answer

def missingFile : Route where
  methods := ["GET", "HEAD"]
  handler _ _ := return page 404

def route? (path : String) : Option Route :=
  if path == "/api/health" then
    some { methods := ["GET", "HEAD"], handler := fun site _ => return health site }
  else if path == "/api/timeline" then some { methods := ["POST"], handler := timeline }
  else if path == "/api/resolve" then some { methods := ["POST"], handler := resolve }
  else if path == "/api/merge" then
    some { methods := ["POST"], handler := fun _ content => merge content }
  else
    match "/static/".toList.isPrefixOf? path.toList with
    | some (c :: _) => if c == '/' then none else some missingFile
    | _ => none

def mergeSlashes : List Char → List Char
  | '/' :: '/' :: rest => '/' :: mergeSlashes rest
  | c :: rest => c :: mergeSlashes rest
  | [] => []

def Route.takes (route : Route) (method : String) : Bool :=
  method == "OPTIONS" || route.methods.contains method

/-- The answer for a path that the service does not have: a path with doubled slashes leads to the
one without. -/
def elsewhere (path method : String) : Answer :=
  match route? (String.ofList (mergeSlashes path.toList)) with
  | some route => page (if route.takes method then 308 else 405)
  | none => page 404

def answer (site : Site) (request : Request) : Work Answer := do
  let path := String.ofList (request.path.toList.takeWhile (· != '?'))
  match route? path with
  | none => return elsewhere path request.method
  | some route =>
    if !route.takes request.method then return page 405
    else if request.method == "OPTIONS" then return page 200
    else
      let answer ← guarded (route.handler site request.content)
      return if request.method == "HEAD" then { answer with body := none } else answer

end CallTimeline.Service
