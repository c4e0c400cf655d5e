import CallTimeline.Json.Value
import CallTimeline.Number.Literal

/-!
# Reading JSON

`Json.read` accepts one value with blanks around it. What counts as a blank and which numbers are
accepted depends on the dialect; the grammar is otherwise that of the standard. Of fields with one
name the last value stands in the place of the first.

The readers below take the text from where the value begins and give the text behind it. Their
fuel, three steps per character, never runs out: every step but two takes a character.
-/

namespace CallTimeline.Json

structure Dialect where
  isBlank : Char → Bool
  nonFinite : Bool
  digitBound : Option Nat
  magnitudeBound : Option Nat

/-- Everything that the standard allows, the special doubles, and whole numbers of up to 4300
digits. -/
def Dialect.wide : Dialect where
  isBlank c := c == ' ' || c == '\t' || c == '\n' || c == '\r'
  nonFinite := true
  digitBound := some Number.digitLimit
  magnitudeBound := none

/-- Finite numbers only, whole ones within 64 bits. -/
def Dialect.narrow : Dialect where
  isBlank c := c == ' ' || (9 ≤ c.toNat && c.toNat ≤ 13)
  nonFinite := false
  digitBound := none
  magnitudeBound := some 0x7FFFFFFFFFFFFFFF

abbrev Rest := List Char

abbrev Reading (α : Type) := Except Number.Refusal (α × Rest)

def malformed {α : Type} : Except Number.Refusal α :=
  .error .malformed

def hexValue? (c : Char) : Option Nat :=
  if '0' ≤ c && c ≤ '9' then some (c.toNat - '0'.toNat)
  else if 'a' ≤ c && c ≤ 'f' then some (c.toNat - 'a'.toNat + 10)
  else if 'A' ≤ c && c ≤ 'F' then some (c.toNat - 'A'.toNat + 10)
  else none

def unit? (digits : List Char) : Option Nat :=
  digits.foldlM (fun value c => (hexValue? c).map (16 * value + ·)) 0

def isHigh (unit : Nat) : Bool :=
  0xD800 ≤ unit && unit < 0xDC00

def isLow (unit : Nat) : Bool :=
  0xDC00 ≤ unit && unit < 0xE000

/-- The characters of a string's units: two units that form a pair are one character, a unit of a
pair that stands alone gives the replacement character. -/
def joinUnits : List Nat → List Char
  | [] => []
  | [unit] => [if isHigh unit || isLow unit then '\uFFFD' else Char.ofNat unit]
  | unit :: next :: rest =>
    if isHigh unit && isLow next then
      Char.ofNat (0x10000 + (unit - 0xD800) * 0x400 + (next - 0xDC00)) :: joinUnits rest
    else (if isHigh unit || isLow unit then '\uFFFD' else Char.ofNat unit) ::
      joinUnits (next :: rest)

def escapedLetter? : Char → Option Char
  | '"' => some '"'
  | '\\' => some '\\'
  | '/' => some '/'
  | 'b' => some '\x08'
  | 'f' => some '\x0c'
  | 'n' => some '\n'
  | 'r' => some '\r'
  | 't' => some '\t'
  | _ => none

def readString (done : List Nat) : List Char → Reading String
  | '"' :: rest => .ok (String.ofList (joinUnits done.reverse), rest)
  | '\\' :: 'u' :: a :: b :: c :: d :: rest =>
    match unit? [a, b, c, d] with
    | some unit => readString (unit :: done) rest
    | none => malformed
  | '\\' :: c :: rest =>
    match escapedLetter? c with
    | some c => readString (c.toNat :: done) rest
    | none => malformed
  | c :: rest => if c.toNat < 0x20 || c == '\\' then malformed else readString (c.toNat :: done) rest
  | [] => malformed

def digits (text : List Char) : List Char × Rest :=
  text.span Char.isDigit

def fractionPart (text : List Char) : Option (List Char) × Rest :=
  match text with
  | '.' :: rest =>
    match digits rest with
    | ([], _) => (none, text)
    | (group, rest) => (some group, rest)
  | _ => (none, text)

def exponentPart (text : List Char) : Option Int × Rest :=
  match text with
  | c :: rest =>
    if c == 'e' || c == 'E' then
      let (negative, behind) := Number.splitSign rest
      match digits behind with
      | ([], _) => (none, text)
      | (group, rest) =>
        let value : Int := Text.digitsValue group
        (some (if negative then -value else value), rest)
    else (none, text)
  | [] => (none, text)

def readNumber (dialect : Dialect) (negative : Bool) (text : List Char) : Reading Json :=
  -- A leading zero is the whole part: digits behind it do not belong to the number.
  let (whole, rest) := match text with
    | '0' :: rest => (['0'], rest)
    | _ => digits text
  if whole.isEmpty then malformed
  else
    let (fraction, rest) := fractionPart rest
    let (exponent, rest) := exponentPart rest
    if fraction.isNone && exponent.isNone then
      let magnitude := Text.digitsValue whole
      if dialect.digitBound.any (· < whole.length) then .error (.tooLong whole.length)
      else if dialect.magnitudeBound.any (· < magnitude) then malformed
      else .ok (.int (if negative then -magnitude else magnitude), rest)
    else
      let group := fraction.getD []
      let value := Double.ofDecimal negative (Text.digitsValue (whole ++ group))
        (exponent.getD 0 - group.length)
      if !dialect.nonFinite && !Double.isFinite value then malformed
      else .ok (.real value, rest)

def readWord (dialect : Dialect) (text : List Char) : Reading Json :=
  let words : List (String × Json) :=
    [("null", .null), ("true", .bool true), ("false", .bool false)] ++
      (if dialect.nonFinite then
        [("NaN", .real Double.nan), ("Infinity", .real (Double.infinity false)),
          ("-Infinity", .real (Double.infinity true))] else [])
  match words.findSome? fun (word, value) =>
      (word.toList.isPrefixOf? text).map fun rest => (value, rest) with
  | some reading => .ok reading
  | none =>
    match text with
    | '-' :: rest => readNumber dialect true rest
    | _ => readNumber dialect false text

def readKey (dialect : Dialect) (text : List Char) : Reading String :=
  match text with
  | '"' :: rest =>
    match readString [] rest with
    | .ok (key, rest) =>
      match rest.dropWhile dialect.isBlank with
      | ':' :: rest => .ok (key, rest.dropWhile dialect.isBlank)
      | _ => malformed
    | .error refusal => .error refusal
  | _ => malformed

mutual

def readValue (dialect : Dialect) (fuel : Nat) (text : List Char) : Reading Json :=
  match fuel, text with
  | 0, _ | _, [] => malformed
  | _ + 1, '"' :: rest =>
    match readString [] rest with
    | .ok (s, rest) => .ok (.str s, rest)
    | .error refusal => .error refusal
  | fuel + 1, '[' :: rest =>
    match rest.dropWhile dialect.isBlank with
    | ']' :: rest => .ok (.arr [], rest)
    | rest => readItems dialect fuel [] rest
  | fuel + 1, '\x7b' :: rest =>
    match rest.dropWhile dialect.isBlank with
    | '\x7d' :: rest => .ok (.obj [], rest)
    | rest => readFields dialect fuel [] rest
  | _ + 1, text => readWord dialect text

def readItems (dialect : Dialect) (fuel : Nat) (done : List Json) (text : List Char) :
    Reading Json :=
  match fuel with
  | 0 => malformed
  | fuel + 1 =>
    match readValue dialect fuel text with
    | .error refusal => .error refusal
    | .ok (value, rest) =>
      match rest.dropWhile dialect.isBlank with
      | ',' :: rest => readItems dialect fuel (value :: done) (rest.dropWhile dialect.isBlank)
      | ']' :: rest => .ok (.arr (value :: done).reverse, rest)
      | _ => malformed

def readFields (dialect : Dialect) (fuel : Nat) (done : List (String × Json)) (text : List Char) :
    Reading Json :=
  match fuel with
  | 0 => malformed
  | fuel + 1 =>
    match readKey dialect text with
    | .error refusal => .error refusal
    | .ok (key, rest) =>
      match readValue dialect fuel rest with
      | .error refusal => .error refusal
      | .ok (value, rest) =>
        match rest.dropWhile dialect.isBlank with
        | ',' :: rest =>
          readFields dialect fuel ((key, value) :: done) (rest.dropWhile dialect.isBlank)
        | '\x7d' :: rest => .ok (.obj (Fields.ofPairs ((key, value) :: done).reverse), rest)
        | _ => malformed

end

def fuelFor (text : List Char) : Nat :=
  3 * text.length + 3

def readFirst (dialect : Dialect) (text : List Char) : Reading Json :=
  let text := text.dropWhile dialect.isBlank
  readValue dialect (fuelFor text) text

def read (dialect : Dialect) (text : List Char) : Except Number.Refusal Json := do
  let (value, rest) ← readFirst dialect text
  if rest.all dialect.isBlank then .ok value else malformed

end CallTimeline.Json
