import CallTimeline.Text.Digit
import CallTimeline.Text.Search
import CallTimeline.Text.Blank

/-!
# Kernel releases

Which series of the kernel sources a release was built from. A release is mostly named after its
series, but the generic kernels of 6.5.0 follow the 6.6 series.
-/

namespace CallTimeline.Kernel

open Text

def fallbackSeries : String := "6.12.y"

def isGeneric (release : List Char) : Bool :=
  match "6.5.0-".toList.isPrefixOf? release with
  | some rest => "-generic".toList.isSuffixOf rest && !rest.contains '\n'
  | none => false

def majorMinor? (release : List Char) : Option (List Char) :=
  match release.span isDigit with
  | ([], _) => none
  | (major, '.' :: rest) =>
    match rest.span isDigit with
    | ([], _) => none
    | (minor, '.' :: _) => some (major ++ '.' :: minor)
    | _ => none
  | _ => none

def series (release : String) : String :=
  let release := trim release.toList
  if isGeneric release then "6.6.y"
  else
    match majorMinor? release with
    | some numbers => String.ofList numbers ++ ".y"
    | none => fallbackSeries

end CallTimeline.Kernel
