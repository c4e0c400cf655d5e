import CallTimeline.Json.Name
import CallTimeline.Timeline.Elapsed
import CallTimeline.Timeline.Entry
import CallTimeline.Trace.Replay

namespace CallTimeline

structure Summary where
  entries : Nat := 0
  transmit : Nat := 0
  receive : Nat := 0
  other : Nat := 0
  maxDepth : Nat := 0
  linesRead : Int := 0
  linesSkipped : Int := 0
  /-- Of the outermost calls only: a caller's duration covers the calls inside. -/
  duration : Float := 0.0
deriving Repr

namespace Summary

def fields (summary : Summary) : Json.Fields :=
  [("total_entries", .int summary.entries), ("transmit", .int summary.transmit),
    ("receive", .int summary.receive), ("other", .int summary.other),
    ("max_stack_depth", .int summary.maxDepth), ("lines_read", .int summary.linesRead),
    ("lines_skipped", .int summary.linesSkipped), ("total_duration_us", .real summary.duration)]

def count (summary : Summary) (entry : Entry) : Summary :=
  { summary with
    entries := summary.entries + 1
    transmit := summary.transmit + if entry.flow = .transmit then 1 else 0
    receive := summary.receive + if entry.flow = .receive then 1 else 0
    other := summary.other + if entry.flow = .other then 1 else 0
    maxDepth := max summary.maxDepth entry.stack.length
    duration :=
      if entry.stack.length = 1 then summary.duration + entry.duration else summary.duration }

end Summary

structure Timeline where
  entries : List Entry := []
  summary : Summary := {}
deriving Repr

namespace Timeline

open Trace

def hasData (timeline : Timeline) : Bool :=
  !timeline.entries.isEmpty

def kindLabel : Kind → String
  | .entry => "Function entry"
  | .call => "Function call"

def durationOf (event : Event) : Float :=
  match event.duration with
  -- A negative zero is shown as zero.
  | some duration => if duration == 0.0 then 0.0 else duration
  | none => 0.0

def contextOf (event : Event) : String :=
  let duration := durationOf event
  kindLabel event.kind ++ ": " ++ event.function ++
    (if duration == 0.0 then "" else " (" ++ elapsed duration ++ ")")

def classify (event : Event) : Direction :=
  Direction.classify event.function (event.stack.dropLast.map (·.function))

def entryAt (settings : Settings) (step : Nat) (event : Event) (flow : Direction) : Entry where
  step
  timestamp := step * settings.timestampScale
  function := .str event.function
  kind := event.kind
  flow
  classified := classify event
  stack := event.stack.map (Frame.map .str)
  buffer := Buffer.atStep event.function flow step
  duration := durationOf event
  file := .str (settings.placeholderFile event.function)
  line := 1
  context := .str (contextOf event)
  cpu := event.cpu
  task := .str event.task

def entriesFrom (settings : Settings) (done : List Entry) (step : Nat) (current : Direction) :
    List Event → List Entry
  | [] => done.reverse
  | event :: rest =>
    let flow := current.follow (classify event)
    entriesFrom settings (entryAt settings step event flow :: done) (step + 1) flow rest

def ofEvents (settings : Settings) (events : List Event) (linesRead linesSkipped : Int) :
    Timeline :=
  let ordered := events.mergeSort fun a b => a.seq ≤ b.seq
  let entries := entriesFrom settings [] 1 .other ordered
  { entries, summary := entries.foldl Summary.count { linesRead, linesSkipped } }

def ofReplay (settings : Settings) (replay : Replay) : Timeline :=
  ofEvents settings replay.events.toList replay.linesRead replay.linesSkipped

def functions (timeline : Timeline) : List Json :=
  Json.distinctNames (timeline.entries.map (·.function))

def toolVersion : String := "1.0.0"

/-- The document of a timeline, written at `now`; `metadata` adds to its own and overrides it. -/
def toJson (timeline : Timeline) (now : String) (metadata : Json.Fields) : Json :=
  let own : Json.Fields := [("kernel_version", .str "unknown"), ("generated_at", .str now),
    ("tool_version", .str toolVersion)]
  .obj [("metadata", .obj (own.update metadata)),
    ("summary", .obj (timeline.summary.fields ++
      [("total_duration_formatted", .str (elapsed timeline.summary.duration))])),
    ("status", .str (if timeline.hasData then "produced" else "no_data")),
    ("timeline", .arr (timeline.entries.map Entry.toJson))]

def report (timeline : Timeline) : List String :=
  let summary := timeline.summary
  if timeline.hasData then
    ["\nSummary:",
      "  Total entries: " ++ toString summary.entries,
      "  TX flow: " ++ toString summary.transmit,
      "  RX flow: " ++ toString summary.receive,
      "  Other: " ++ toString summary.other,
      "  Max call stack depth: " ++ toString summary.maxDepth,
      "  Distinct functions: " ++ toString timeline.functions.length,
      "  Total traced time: " ++ elapsed summary.duration,
      "  Lines skipped: " ++ toString summary.linesSkipped ++ " of " ++
        toString summary.linesRead]
  else
    ["\nNo timeline entries produced (" ++ toString summary.linesRead ++ " lines read, " ++
      toString summary.linesSkipped ++ " skipped)"]

end Timeline

end CallTimeline
