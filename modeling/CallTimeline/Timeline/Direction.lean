import CallTimeline.Text.LowerCase
import CallTimeline.Text.Search

/-!
# Directions

Whether a function belongs to sending or to receiving, told from words in its name and, if it has
none, in the names of the calls around it. Sending is looked for first.
-/

namespace CallTimeline

open Text

inductive Direction where
  | transmit
  | receive
  | other
deriving Repr, DecidableEq

namespace Direction

def word : Direction → String
  | transmit => "TRANSMIT"
  | receive => "RECEIVE"
  | other => "OTHER"

def all : List Direction := [transmit, receive, other]

def rules : List (Direction × List String) :=
  [(transmit, ["send", "transmit", "xmit", "output", "__sys_sendto"]),
   (receive, ["recv", "receive", "rcv", "input", "__sys_recvfrom", "deliver"])]

def ofText? (text : String) : Option Direction :=
  let lowered := lower text.toList
  (rules.find? fun rule => rule.2.any fun word => occurs word.toList lowered).map (·.1)

def classify (function : String) (around : List String) : Direction :=
  ((ofText? function).or (ofText? (" ".intercalate around))).getD other

/-- The direction on display after `classified`: a function without one belongs to the flow before
it. -/
def follow (current classified : Direction) : Direction :=
  if classified = other then current else classified

def track (current : Direction) : List Direction → List Direction
  | [] => []
  | classified :: rest => follow current classified :: track (follow current classified) rest

end Direction

end CallTimeline
