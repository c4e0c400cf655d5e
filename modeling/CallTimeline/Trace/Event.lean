import CallTimeline.Fault

namespace CallTimeline

/-- A call on a stack. `α` is what functions and files are written as. -/
structure Frame (α : Type) where
  function : α
  depth : Int
  file : α
  line : Int
deriving Repr, DecidableEq

def Frame.map {α β : Type} (f : α → β) (frame : Frame α) : Frame β :=
  { frame with function := f frame.function, file := f frame.file }

inductive Kind where
  | entry
  | call
deriving Repr, DecidableEq

namespace Kind

def word : Kind → String
  | entry => "entry"
  | call => "call"

def all : List Kind := [entry, call]

end Kind

namespace Trace

structure Event where
  seq : Int
  function : String
  kind : Kind
  depth : Int
  /-- Outermost first; the last frame is the event's own. -/
  stack : List (Frame String)
  cpu : Int
  task : String
  /-- In microseconds; absent as long as no line gives it. -/
  duration : Option Float
deriving Repr, DecidableEq

structure Settings where
  indentWidth : Nat := 2
  indentWidth_pos : 0 < indentWidth := by decide
  timestampScale : Int := 1000
  placeholderDir : String := "net/core"

namespace Settings

def withoutEndSlashes (path : String) : String :=
  String.ofList (Text.dropEndWhile (· == '/') path.toList)

def make (indentWidth timestampScale : Int) (placeholderDir : String) : Except Fault Settings :=
  if h : 0 < indentWidth.toNat then
    .ok {
      indentWidth := indentWidth.toNat
      indentWidth_pos := h
      timestampScale
      placeholderDir := withoutEndSlashes placeholderDir }
  else .error (.indentWidth indentWidth)

def placeholderFile (settings : Settings) (function : String) : String :=
  settings.placeholderDir ++ "/" ++ function ++ ".c"

end Settings

end Trace

end CallTimeline
