import CallTimeline.Session
import CallTimeline.Text.Lines
import CallTimeline.Text.Utf8
import CallTimeline.Timeline.Build

namespace CallTimeline.Workflow

open Trace

def progressEvery : Nat := 100000

def announceFile (path : String) : Work Unit :=
  Work.print ("Processing " ++ path ++ "...")

def linesOf (bytes : List UInt8) : List (List Char) :=
  Text.lines (Text.unifyLineEnds (Text.Utf8.decodeReplacing bytes))

def traceLines (path : String) : Work (List (List Char)) := do
  return linesOf (← Work.contents path)

def reportProgress (count : Nat) : Work Unit :=
  (List.range (count / progressEvery)).forM fun i =>
    Work.print ("  Read " ++ toString ((i + 1) * progressEvery) ++ " lines...")

def reportEnd (count : Nat) : Work Unit :=
  Work.print ("Completed reading file: " ++ toString count ++ " lines.")

def readTrace (path : String) : Work (List (List Char)) := do
  announceFile path
  let lines ← traceLines path
  reportProgress lines.length
  reportEnd lines.length
  return lines

def printReport (timeline : Timeline) : Work Unit :=
  timeline.report.forM Work.print

/-- The timeline of a trace file. A fault in a line ends the reading there. -/
def timelineOfFile (settings : Settings) (path : String) : Work Timeline := do
  announceFile path
  match Replay.runUntilFault settings {} (← traceLines path) with
  | (replay, some fault) =>
    reportProgress (replay.linesRead + 1)
    throw fault
  | (replay, none) =>
    reportProgress replay.linesRead
    reportEnd replay.linesRead
    return Timeline.ofReplay settings replay

end CallTimeline.Workflow
