import CallTimeline.Json.Reader
import CallTimeline.Text.Utf8

/-!
# The encoding of a JSON text

JSON is sent in UTF-8, UTF-16 or UTF-32. A byte order mark tells which. Without one the zero bytes
among the first four do, since a JSON text begins with a character of ASCII.
-/

namespace CallTimeline.Json

inductive Encoding where
  | utf8
  | utf16 (bigEndian : Bool)
  | utf32 (bigEndian : Bool)
deriving Repr, DecidableEq

namespace Encoding

def detect (bytes : List UInt8) : Encoding × List UInt8 :=
  match bytes with
  | 0 :: 0 :: 0xFE :: 0xFF :: rest => (.utf32 true, rest)
  | 0xFF :: 0xFE :: 0 :: 0 :: rest => (.utf32 false, rest)
  | 0xFE :: 0xFF :: rest => (.utf16 true, rest)
  | 0xFF :: 0xFE :: rest => (.utf16 false, rest)
  | 0xEF :: 0xBB :: 0xBF :: rest => (.utf8, rest)
  | 0 :: second :: _ :: _ :: _ => (if second = 0 then .utf32 true else .utf16 true, bytes)
  | _ :: 0 :: third :: fourth :: _ =>
    (if third = 0 ∧ fourth = 0 then .utf32 false else .utf16 false, bytes)
  | [0, _] => (.utf16 true, bytes)
  | [_, 0] => (.utf16 false, bytes)
  | _ => (.utf8, bytes)

def unit (bigEndian : Bool) (bytes : List UInt8) : Nat :=
  (if bigEndian then bytes else bytes.reverse).foldl (fun value byte => 256 * value + byte.toNat) 0

def pairs? (bigEndian : Bool) : List UInt8 → Option (List Nat)
  | [] => some []
  | a :: b :: rest => (pairs? bigEndian rest).map (unit bigEndian [a, b] :: ·)
  | _ => none

def quadruples? (bigEndian : Bool) : List UInt8 → Option (List Nat)
  | [] => some []
  | a :: b :: c :: d :: rest =>
    (quadruples? bigEndian rest).map (unit bigEndian [a, b, c, d] :: ·)
  | _ => none

def decode? : Encoding → List UInt8 → Option (List Char)
  | utf8, bytes => Text.Utf8.decode? bytes
  | utf16 bigEndian, bytes => (pairs? bigEndian bytes).map joinUnits
  | utf32 bigEndian, bytes => do
    let units ← quadruples? bigEndian bytes
    if units.all (· ≤ 0x10FFFF) then some (units.flatMap fun unit => joinUnits [unit]) else none

end Encoding

def textOf? (bytes : List UInt8) : Option (List Char) :=
  let (encoding, bytes) := Encoding.detect bytes
  encoding.decode? bytes

end CallTimeline.Json
