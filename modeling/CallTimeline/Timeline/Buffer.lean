import CallTimeline.Timeline.Direction
import CallTimeline.Json.Convert

/-!
# Buffer states

Every step of a timeline shows a packet buffer. Its addresses are made up from the step number,
its fill level from the function, the direction and the step, so the same trace always gives the
same picture.
-/

namespace CallTimeline

open Text

structure Buffer where
  address : Json
  dataLength : Int
  head : Json
  data : Json
  tail : Json
  limit : Json
  protocol : Json
deriving Repr

namespace Buffer

def baseAddress : Int := 0xffff888100000000
def stepStride : Int := 0x1000
def headOffset : Int := 0x100
def dataOffset : Int := 0x200
def limitOffset : Int := 0x800

def fullSize : Int := 1500
def receiveSize : Int := 1024
def leastSize : Int := 64

def hex (n : Int) : String :=
  "0x" ++ (if n < 0 then "-" else "") ++ String.ofList (Nat.toDigits 16 n.natAbs)

/-- The bytes in the buffer: a sent packet sheds its headers step by step, a received one gathers
payload. -/
def payload (function : String) (direction : Direction) (step : Int) : Int :=
  if occurs "alloc".toList function.toList then
    if direction = .transmit then fullSize else receiveSize
  else if occurs "free".toList function.toList then 0
  else if direction = .transmit then max leastSize (fullSize - step * 50)
  else min fullSize (leastSize + step * 30)

def protocolRules : List (String × String) :=
  [("tcp", "TCP"), ("udp", "UDP"), ("icmp", "ICMP"), ("inet", "UDP")]

def protocolOf (function : String) : String :=
  let lowered := lower function.toList
  ((protocolRules.find? fun rule => occurs rule.1.toList lowered).map (·.2)).getD "IP"

def atStep (function : String) (direction : Direction) (step : Int) : Buffer :=
  let base := baseAddress + step * stepStride
  let size := payload function direction step
  { address := .str (hex base)
    dataLength := size
    head := .str (hex (base + headOffset))
    data := .str (hex (base + dataOffset))
    tail := .str (hex (base + dataOffset + size))
    limit := .str (hex (base + limitOffset))
    protocol := .str (protocolOf function) }

def toJson (buffer : Buffer) : Json :=
  .obj [("sk_buff_addr", buffer.address), ("data_len", .int buffer.dataLength),
    ("head", buffer.head), ("data", buffer.data), ("tail", buffer.tail), ("end", buffer.limit),
    ("protocol", buffer.protocol)]

def ofJson (record : Json) : Except Fault Buffer := do
  return {
    address := ← record.field "sk_buff_addr"
    dataLength := ← (← record.field "data_len").toInt
    head := ← record.field "head"
    data := ← record.field "data"
    tail := ← record.field "tail"
    limit := ← record.field "end"
    protocol := ← record.field "protocol" }

end Buffer

end CallTimeline
