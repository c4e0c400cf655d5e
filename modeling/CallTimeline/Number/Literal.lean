import CallTimeline.Number.Double
import CallTimeline.Text.Blank
import CallTimeline.Text.Digit

/-!
# Numbers written as text

Whole numbers and doubles in base ten, with the digits of any script, blanks around them and single
underscores between digits. A whole number of more than `digitLimit` digits is refused for its
length, whatever stands behind it.
-/

namespace CallTimeline.Number

open Text

/-- Blanks that may stand around a number: the information separators may not. -/
def isPadding (c : Char) : Bool :=
  isBlank c && !(28 ≤ c.toNat && c.toNat ≤ 31)

/-- The most digits a whole number may be written with. -/
def digitLimit : Nat := 4300

def digitCount (n : Nat) : Nat :=
  (Nat.toDigits 10 n).length

inductive Refusal where
  | malformed
  | tooLong (digits : Nat)
deriving Repr, DecidableEq

def splitSign : List Char → Bool × List Char
  | '-' :: rest => (true, rest)
  | '+' :: rest => (false, rest)
  | s => (false, s)

def isDigitOrUnderscore (c : Char) : Bool :=
  isDigit c || c == '_'

def groupedDigits? : List Char → Option (List Char)
  | [] => none
  | [c] => if isDigit c then some [c] else none
  | c :: '_' :: rest => if isDigit c then (groupedDigits? rest).map (c :: ·) else none
  | c :: rest => if isDigit c then (groupedDigits? rest).map (c :: ·) else none

def integer (text : List Char) : Except Refusal Int :=
  let (negative, body) := splitSign (text.dropWhile isPadding)
  let (group, rest) := body.span isDigitOrUnderscore
  match groupedDigits? group with
  | none => .error .malformed
  | some digits =>
    if digitLimit < digits.length then .error (.tooLong digits.length)
    else if rest.all isPadding then
      let value : Int := digitsValue digits
      .ok (if negative then -value else value)
    else .error .malformed

def optionalDigits? : List Char → Option (List Char)
  | [] => some []
  | group => groupedDigits? group

def specialReal? (negative : Bool) (word : List Char) : Option Float :=
  let word := String.ofList (word.map Char.toLower)
  if word == "inf" || word == "infinity" then some (Double.infinity negative)
  else if word == "nan" then some Double.nan
  else none

def exponent? : List Char → Option Int
  | [] => some 0
  | c :: rest =>
    if c == 'e' || c == 'E' then
      let (negative, group) := splitSign rest
      (groupedDigits? group).map fun digits =>
        let value : Int := digitsValue digits
        if negative then -value else value
    else none

/-- Digits with at most one point, at least one of them, and an optional exponent. -/
def decimal? (negative : Bool) (body : List Char) : Option Float := do
  let (whole, rest) := body.span isDigitOrUnderscore
  let (fraction, rest) := match rest with
    | '.' :: rest => rest.span isDigitOrUnderscore
    | _ => ([], rest)
  let whole ← optionalDigits? whole
  let fraction ← optionalDigits? fraction
  if whole.isEmpty && fraction.isEmpty then none
  let exponent ← exponent? rest
  some (Double.ofDecimal negative (digitsValue (whole ++ fraction)) (exponent - fraction.length))

def real? (text : List Char) : Option Float :=
  let (negative, body) := splitSign (dropEndWhile isPadding (text.dropWhile isPadding))
  (specialReal? negative body).or (decimal? negative body)

end CallTimeline.Number
