import CallTimeline.Number.Literal
import CallTimeline.Text.Search

namespace CallTimeline.Trace

open Text

def pointDigits : List Char → List Char × List Char
  | '.' :: rest => rest.span isDigit
  | rest => ([], rest)

def unitFollows (text : List Char) : Bool :=
  "us".toList.isPrefixOf (text.dropWhile isBlank)

def leadingMicroseconds? (text : List Char) : Option (List Char × List Char) :=
  let (whole, rest) := text.span isDigit
  let (fraction, behind) := pointDigits rest
  if whole.isEmpty then none
  else if unitFollows behind then some (whole, fraction)
  else none

def microseconds? : List Char → Option (List Char × List Char)
  | [] => none
  | c :: rest => (leadingMicroseconds? (c :: rest)).or (microseconds? rest)

def duration (column : List Char) : Float :=
  match if occurs "us".toList column then microseconds? column else none with
  | some (whole, fraction) =>
    Double.ofDecimal false (digitsValue (whole ++ fraction)) (-fraction.length)
  | none => 0.0

end CallTimeline.Trace
