import CallTimeline.Timeline.Buffer
import CallTimeline.Trace.Event

namespace CallTimeline

def Json.toWord {α : Type} (kind : String) (word : α → String) (all : List α) (value : Json) :
    Except Fault α :=
  match value with
  | .str text =>
    match all.find? (word · == text) with
    | some a => .ok a
    | none => .error (.unknownWord value.shown kind)
  | value => .error (.unknownWord value.shown kind)

def Kind.ofJson : Json → Except Fault Kind :=
  Json.toWord "EventKind" word all

def Direction.ofJson : Json → Except Fault Direction :=
  Json.toWord "FlowDirection" word all

namespace Frame

def toJson (frame : Frame Json) : Json :=
  .obj [("function", frame.function), ("file", frame.file), ("line", .int frame.line),
    ("depth", .int frame.depth)]

def ofJson (record : Json) : Except Fault (Frame Json) := do
  return {
    function := ← record.field "function"
    depth := ← (← record.field "depth").toInt
    file := ← record.fieldD "file" (.str "")
    line := ← (← record.fieldD "line" (.int 1)).toInt }

end Frame

/-- Fields that no rule constrains keep the value with which they were written. -/
structure Entry where
  step : Int
  timestamp : Int
  function : Json
  kind : Kind
  flow : Direction
  classified : Direction
  stack : List (Frame Json)
  buffer : Buffer
  /-- In microseconds. -/
  duration : Float
  file : Json
  line : Int
  context : Json
  cpu : Int
  task : Json
deriving Repr

namespace Entry

def toJson (entry : Entry) : Json :=
  .obj [("step", .int entry.step), ("timestamp", .int entry.timestamp),
    ("function", entry.function), ("event_type", .str entry.kind.word),
    ("flow_direction", .str entry.flow.word),
    ("classified_direction", .str entry.classified.word),
    ("call_stack", .arr (entry.stack.map Frame.toJson)),
    ("buffer_state", entry.buffer.toJson), ("duration_us", .real entry.duration),
    ("source_info", .obj [("file", entry.file), ("line", .int entry.line),
      ("context", entry.context)]),
    ("cpu", .int entry.cpu), ("task", entry.task)]

/-- Reads a record. Of several faults the one of the first field counts, in the order of the fields
below. -/
def ofJson (record : Json) : Except Fault Entry := do
  let source ← record.fieldD "source_info" (.obj [])
  return {
    step := ← (← record.field "step").toInt
    timestamp := ← (← record.field "timestamp").toInt
    function := ← record.field "function"
    kind := ← Kind.ofJson (← record.field "event_type")
    flow := ← Direction.ofJson (← record.field "flow_direction")
    classified := ← Direction.ofJson
      (← record.fieldD "classified_direction" (← record.field "flow_direction"))
    stack := ← (← (← record.fieldD "call_stack" (.arr [])).parts).mapM Frame.ofJson
    buffer := ← Buffer.ofJson (← record.field "buffer_state")
    duration := ← (← record.fieldD "duration_us" (.real 0.0)).toReal
    file := ← source.fieldD "file" (.str "")
    line := ← (← source.fieldD "line" (.int 1)).toInt
    context := ← source.fieldD "context" (.str "")
    cpu := ← (← record.fieldD "cpu" (.int 0)).toInt
    task := ← record.fieldD "task" (.str "") }

end Entry

end CallTimeline
