import CallTimeline.Trace.Body
import CallTimeline.Trace.Columns
import CallTimeline.Trace.Duration
import CallTimeline.Trace.Event

/-!
# Replaying a trace

`Replay.step` reads one line and keeps the stack of the calls that are open. Lines of several cpus
and missing exits are tolerated: what stands at the depth of a new line or deeper has ended.

An exit gives its duration to the innermost open call at its depth or deeper that has none. A call
on one line opens nothing.
-/

namespace CallTimeline.Trace

structure OpenCall where
  frame : Frame String
  event : Nat

structure Replay where
  linesRead : Nat := 0
  linesSkipped : Nat := 0
  events : Array Event := #[]
  /-- Outermost first. -/
  openCalls : List OpenCall := []

namespace Replay

variable (settings : Settings)

def stackAbove (replay : Replay) (depth : Nat) : List OpenCall :=
  replay.openCalls.filter (·.frame.depth < depth)

def skip (replay : Replay) : Replay :=
  { replay with linesSkipped := replay.linesSkipped + 1 }

def frameOf (function : String) (depth : Nat) : Frame String :=
  { function, depth, file := settings.placeholderFile function, line := 1 }

def nextEvent (replay : Replay) (columns : Columns) (function : String) (kind : Kind) (depth : Nat)
    (duration : Option Float) : Event where
  seq := replay.events.size + 1
  function
  kind
  depth
  stack := (replay.stackAbove depth).map (·.frame) ++ [frameOf settings function depth]
  cpu := columns.cpu
  task := String.ofList columns.task
  duration

def enter (replay : Replay) (columns : Columns) (function : String) (depth : Nat) : Replay :=
  { replay with
    events := replay.events.push (replay.nextEvent settings columns function .entry depth none)
    openCalls := replay.stackAbove depth ++ [⟨frameOf settings function depth, replay.events.size⟩] }

def call (replay : Replay) (columns : Columns) (function : String) (depth : Nat) : Replay :=
  { replay with
    events := replay.events.push
      (replay.nextEvent settings columns function .call depth (some (duration columns.duration))) }

/-- The innermost open call at `depth` or deeper whose duration is not known. -/
def closing? (replay : Replay) (depth : Nat) : Option OpenCall :=
  replay.openCalls.reverse.find? fun call =>
    depth ≤ call.frame.depth && (replay.events[call.event]?).all (·.duration.isNone)

def leave (replay : Replay) (columns : Columns) (depth : Nat) : Replay :=
  { replay with
    events := match replay.closing? depth with
      | some call =>
        replay.events.modify call.event fun event =>
          { event with duration := some (duration columns.duration) }
      | none => replay.events
    -- The exit may pass over calls whose own exits are missing. They have ended as well.
    openCalls := replay.stackAbove depth }

def apply (replay : Replay) (columns : Columns) : Except Fault Replay :=
  let depth := columns.indent / settings.indentWidth
  match Body.read? columns.body with
  | none => .ok replay.skip
  | some .leave => .ok (replay.leave columns depth)
  | some (.enter token) =>
    (functionName token).map fun function => replay.enter settings columns function depth
  | some (.call token) =>
    (functionName token).map fun function => replay.call settings columns function depth

def step (replay : Replay) (line : List Char) : Except Fault Replay := do
  let replay := { replay with linesRead := replay.linesRead + 1 }
  match ← Columns.ofLine line with
  | none => return replay.skip
  | some columns => replay.apply settings columns

def run (lines : List (List Char)) : Except Fault Replay :=
  lines.foldlM (step settings) {}

/-- Replays lines up to the first that gives a fault. -/
def runUntilFault (replay : Replay) : List (List Char) → Replay × Option Fault
  | [] => (replay, none)
  | line :: rest =>
    match replay.step settings line with
    | .ok next => runUntilFault next rest
    | .error fault => (replay, some fault)

end Replay

end CallTimeline.Trace
