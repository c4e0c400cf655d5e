import CallTimeline.Source.Location
import CallTimeline.Text.Search

namespace CallTimeline

open Source Text

def layerRules : List (List String × String) :=
  [(["eth_", "netif_"], "Link Layer"),
   (["ip_"], "Network Layer"),
   (["udp_", "tcp_"], "Transport Layer"),
   (["sock_"], "Socket Layer")]

def firstRule? {α : Type} (function : String) (rules : List (List String × α)) : Option α :=
  (rules.find? fun rule => rule.1.any fun word => occurs word.toList function.toList).map (·.2)

def layerOf (function : String) : String :=
  (firstRule? function layerRules).getD "Core Network"

structure Purpose where
  purpose : String → String
  beginner : String → String
  intermediate : String → String
  advanced : String → String

def purposeRules : List (List String × Purpose) :=
  [(["receive", "rcv"], {
      purpose := fun layer => "Process incoming network packets at " ++ layer
      beginner := fun layer => "This function handles incoming network packets in the " ++ layer ++
        ". It processes packet data and forwards it to the next layer."
      intermediate := fun layer => "Receives packets from lower layer, performs " ++ layer ++
        " processing including validation and header parsing."
      advanced := fun layer => "Core implementation of " ++ layer ++
        " packet reception with error handling and protocol demultiplexing." }),
   (["queue"], {
      purpose := fun layer => "Queue packets for processing in " ++ layer
      beginner := fun layer => "This function manages packet queuing in the " ++ layer ++
        ", ensuring proper ordering and flow control."
      intermediate := fun _ =>
        "Implements packet queuing mechanisms with buffer management and congestion control."
      advanced := fun layer =>
        "Queue management implementation with locking and memory allocation for " ++ layer ++ "." }),
   (["deliver"], {
      purpose := fun layer => "Deliver packets to next layer from " ++ layer
      beginner := fun layer => "This function delivers processed packets from " ++ layer ++
        " to the appropriate next layer or application."
      intermediate := fun layer => "Packet delivery mechanism that routes packets based on " ++
        layer ++ " information."
      advanced := fun _ =>
        "Delivery implementation with protocol lookup and packet forwarding logic." })]

def generalPurpose : Purpose where
  purpose layer := "Core " ++ layer ++ " processing function"
  beginner layer :=
    "This function performs essential " ++ layer ++ " operations on network packets."
  intermediate layer := "Implements core " ++ layer ++ " protocol logic and packet manipulation."
  advanced layer := "Low-level " ++ layer ++ " implementation with performance optimizations."

structure Annotation where
  function : Json
  file : Json
  lineRange : String
  layer : String
  purpose : String
  beginner : String
  intermediate : String
  advanced : String
  before : String
  after : String

def integerText (value : Int) : Except Fault String :=
  if Number.digitLimit < Number.digitCount value.natAbs then .error .unwritableInteger
  else .ok (toString value)

namespace Annotation

def ofLocation (location : Location) : Except Fault Annotation := do
  let function ← match location.function with
    | .str function => pure function
    | value => throw (.mismatch ("argument of type '" ++ value.kind ++ "' is not iterable"))
  let layer := layerOf function
  let purpose := (firstRule? function purposeRules).getD generalPurpose
  let lowered := String.ofList (layer.toList.map Char.toLower)
  return {
    function := location.function
    file := location.file
    lineRange := (← integerText location.line) ++ "-" ++ (← integerText location.lastLine)
    layer
    purpose := purpose.purpose lowered
    beginner := purpose.beginner lowered
    intermediate := purpose.intermediate lowered
    advanced := purpose.advanced lowered
    before := "Packet entering " ++ lowered ++ " processing"
    after := "Packet processed by " ++ lowered ++ ", ready for next stage" }

def toJson (note : Annotation) : Json :=
  .obj [
    ("basic", .obj [("file", note.file), ("line_range", .str note.lineRange),
      ("layer", .str note.layer), ("purpose", .str note.purpose)]),
    ("explanations", .obj [("beginner", .str note.beginner),
      ("intermediate", .str note.intermediate), ("advanced", .str note.advanced)]),
    ("packet_flow", .obj [("packet_state_before", .str note.before),
      ("packet_state_after", .str note.after)])]

def ofLocations (locations : Locations) : Except Fault (List (Json × Annotation)) := do
  (← Json.sortByName locations).mapM fun (name, location) => do
    return (name, ← ofLocation location)

end Annotation

end CallTimeline
