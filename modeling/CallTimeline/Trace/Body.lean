import CallTimeline.Fault
import CallTimeline.Text.Search

/-!
# What the body of a trace line says

`name() {` enters a function, `}` leaves one, `name();` is a call that returns at once. Behind the
name may stand a tag in brackets, the module that the function belongs to, and behind a closing
brace a comment.
-/

namespace CallTimeline.Trace

open Text

inductive Body where
  | enter (token : List Char)
  | leave
  | call (token : List Char)
deriving Repr, DecidableEq

def isTokenChar (c : Char) : Bool :=
  !isBlank c && c != '(' && c != ')' && c != '\x7b' && c != '\x7d' && c != ';'

def tag? (text : List Char) : Option (List Char × List Char) :=
  match text.span isBlank with
  | ([], _) => none
  | (blanks, '[' :: rest) =>
    (cutAt? ']' rest).map fun (inside, behind) => (blanks ++ '[' :: inside ++ [']'], behind)
  | _ => none

def token? (text : List Char) : Option (List Char × List Char) :=
  match text.span isTokenChar with
  | ([], _) => none
  | (name, rest) =>
    match tag? rest with
    | some (tag, rest) => some (name ++ tag, rest)
    | none => some (name, rest)

def afterArguments? (text : List Char) : Option (List Char) :=
  "()".toList.isPrefixOf? (text.dropWhile isBlank)

def enter? (body : List Char) : Option (List Char) := do
  let (token, rest) ← token? body
  let rest ← afterArguments? rest
  if rest.dropWhile isBlank == ['\x7b'] then some token else none

def call? (body : List Char) : Option (List Char) := do
  let (token, rest) ← token? body
  let rest ← afterArguments? rest
  if rest.head? == some ';' then some token else none

def isComment (text : List Char) : Bool :=
  match "/*".toList.isPrefixOf? text with
  | some rest => "*/".toList.isSuffixOf rest
  | none => false

def isLeave : List Char → Bool
  | '\x7d' :: rest => rest.isEmpty || isComment (rest.dropWhile isBlank)
  | _ => false

def Body.read? (body : List Char) : Option Body :=
  match enter? body with
  | some token => some (.enter token)
  | none => if isLeave body then some .leave else (call? body).map .call

/-- The function that a token names: its first word up to a bracket. -/
def functionName (token : List Char) : Except Fault String :=
  match words token with
  | [] => .error .blankName
  | word :: _ => .ok (String.ofList (word.takeWhile (· != '[')))

end CallTimeline.Trace
