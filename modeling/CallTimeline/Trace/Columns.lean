import CallTimeline.Fault
import CallTimeline.Text.Search

/-!
# The columns of a trace line

A line of a call-graph trace is `[time |] cpu) [task |] duration | body`, where the spaces before
the body tell how deep the call is nested. Headings, banners and comments have other forms and give
no columns.
-/

namespace CallTimeline.Trace

open Text

structure Columns where
  cpu : Nat
  task : List Char
  duration : List Char
  indent : Nat
  body : List Char
deriving Repr, DecidableEq

def skipTime? (text : List Char) : Option (List Char) :=
  match text.span isDigit with
  | ([], _) => none
  | (_, '.' :: rest) =>
    match rest.span isDigit with
    | ([], _) => none
    | (_, rest) =>
      match rest.dropWhile isBlank with
      | '|' :: rest => some (rest.dropWhile isBlank)
      | _ => none
  | _ => none

def cpuColumn? (text : List Char) : Option (List Char × List Char) :=
  match text.span isDigit with
  | ([], _) => none
  | (digits, ')' :: rest) => some (digits, rest)
  | _ => none

/-- Spaces and then a body, which begins with no other blank and stays on one line. Blanks behind
it do not belong to it. -/
def indentedBody? (text : List Char) : Option (Nat × List Char) :=
  let (spaces, rest) := text.span (· == ' ')
  let body := dropEndWhile isBlank rest
  if body.isEmpty || body.head?.any isBlank || body.contains '\n' then none
  else some (spaces.length, body)

/-- The columns behind the cpu: with a task column if there is a body behind the second bar. -/
def innerColumns? (text : List Char) :
    Option (List Char × List Char × Nat × List Char) := do
  let (first, rest) ← cutAt? '|' text
  let withTask := do
    let (duration, rest) ← cutAt? '|' rest
    let (indent, body) ← indentedBody? rest
    some (trim first, duration, indent, body)
  let withoutTask := do
    let (indent, body) ← indentedBody? rest
    some ([], first, indent, body)
  withTask.or withoutTask

def cpuNumber (digits : List Char) : Except Fault Nat :=
  if Number.digitLimit < digits.length then .error (.tooManyDigits digits.length)
  else .ok (digitsValue digits)

def Columns.ofLine (line : List Char) : Except Fault (Option Columns) :=
  let text := (chomp line).dropWhile isBlank
  if text.isEmpty || text.head? == some '#' then .ok none
  else
    match cpuColumn? ((skipTime? text).getD text) with
    | none => .ok none
    | some (digits, rest) =>
      match innerColumns? rest with
      | none => .ok none
      | some (task, duration, indent, body) => do
        -- A number that is too long is a fault only of a line that has all its columns.
        let cpu ← cpuNumber digits
        return some { cpu, task, duration, indent, body }

end CallTimeline.Trace
