/-!
# Reading UTF-8

`decode` reads bytes as characters and marks each ill-formed stretch: the longest beginning of a
character that cannot be completed, or a single byte that begins none. A reader then drops the
marks, replaces each by `U+FFFD`, or refuses the text.
-/

namespace CallTimeline.Text.Utf8

/-- What the first byte of a character says: its share of the code point, how many bytes follow,
and between which bounds the next one lies. -/
structure Lead where
  value : Nat
  following : Nat
  low : Nat := 0x80
  high : Nat := 0xBF

/-- The bounds exclude overlong forms, surrogates and everything above `U+10FFFF`. -/
def lead? (byte : Nat) : Option Lead :=
  if byte < 0x80 then some { value := byte, following := 0 }
  else if byte < 0xC2 then none
  else if byte < 0xE0 then some { value := byte - 0xC0, following := 1 }
  else if byte = 0xE0 then some { value := 0, following := 2, low := 0xA0 }
  else if byte = 0xED then some { value := 0xD, following := 2, high := 0x9F }
  else if byte < 0xF0 then some { value := byte - 0xE0, following := 2 }
  else if byte = 0xF0 then some { value := 0, following := 3, low := 0x90 }
  else if byte < 0xF4 then some { value := byte - 0xF0, following := 3 }
  else if byte = 0xF4 then some { value := 4, following := 3, high := 0x8F }
  else none

/-- Reads the bytes that `lead` asks for: the character, or `none` at the first byte out of bounds,
and the bytes behind. -/
def follow (value low high : Nat) : Nat → List UInt8 → Option Char × List UInt8
  | 0, bytes => (some (Char.ofNat value), bytes)
  | _ + 1, [] => (none, [])
  | following + 1, byte :: bytes =>
    if low ≤ byte.toNat ∧ byte.toNat ≤ high then
      follow (64 * value + (byte.toNat - 0x80)) 0x80 0xBF following bytes
    else (none, byte :: bytes)

theorem length_follow_le (value low high following : Nat) (bytes : List UInt8) :
    (follow value low high following bytes).2.length ≤ bytes.length := by
  fun_induction follow value low high following bytes with
  | case1 => exact Nat.le_refl _
  | case2 => exact Nat.le_refl _
  | case3 _ _ _ _ _ _ _ ih =>
    simp only [List.length_cons]
    omega
  | case4 => exact Nat.le_refl _

def decode.go (done : List (Option Char)) : List UInt8 → List (Option Char)
  | [] => done.reverse
  | byte :: bytes =>
    match lead? byte.toNat with
    | none => go (none :: done) bytes
    | some lead =>
      let step := follow lead.value lead.low lead.high lead.following bytes
      go (step.1 :: done) step.2
termination_by bytes => bytes.length
decreasing_by
  · simp
  · have := length_follow_le lead.value lead.low lead.high lead.following bytes
    simp only [List.length_cons]
    omega

/-- The characters in order, `none` for each ill-formed stretch. -/
def decode (bytes : List UInt8) : List (Option Char) :=
  decode.go [] bytes

def decodeIgnoring (bytes : List UInt8) : List Char :=
  (decode bytes).filterMap id

def decodeReplacing (bytes : List UInt8) : List Char :=
  (decode bytes).map (·.getD '\uFFFD')

def decode? (bytes : List UInt8) : Option (List Char) :=
  let characters := decode bytes
  if characters.all Option.isSome then some (characters.filterMap id) else none

def encode (text : String) : List UInt8 :=
  text.toUTF8.toList

end CallTimeline.Text.Utf8
