import CallTimeline.Text.AsciiFold
import CallTimeline.Text.Blank
import CallTimeline.Text.LowerCase
import CallTimeline.Text.Search

/-!
# Names of uploaded files

A file comes with a name that its sender chose. `sent?` is the name as a form carries it, `isTrace`
tells by the ending whether it is a trace, and `safe` is a name that leads nowhere else.
-/

namespace CallTimeline.Service.Upload

open Text

def untilQuote? : List Char → Option (List Char)
  | [] => none
  | '"' :: _ => some []
  | '\\' :: '\\' :: rest => (untilQuote? rest).map fun inside => '\\' :: '\\' :: inside
  | '\\' :: '"' :: rest => (untilQuote? rest).map fun inside => '\\' :: '"' :: inside
  | c :: rest => (untilQuote? rest).map (c :: ·)

/-- Every occurrence of a pattern of at least one character replaced. -/
def replaceAll (pattern new : List Char) (fuel : Nat) (text : List Char) : List Char :=
  match fuel, text with
  | 0, _ | _, [] => text
  | fuel + 1, c :: rest =>
    match pattern.isPrefixOf? (c :: rest) with
    | some behind => new ++ replaceAll pattern new fuel behind
    | none => c :: replaceAll pattern new fuel rest

def unescape (text : List Char) : List Char :=
  let step (pattern new text : List Char) := replaceAll pattern new text.length text
  step ['%', '2', '2'] ['"'] (step ['\\', '"'] ['"'] (step ['\\', '\\'] ['\\'] text))

/-- A name as a form carries it between quotes, in which no quote is escaped by the sender. Without
a closing quote there is no name. -/
def sent? (name : String) : Option String :=
  (untilQuote? (name.toList ++ ['"'])).map fun inside => String.ofList (unescape inside)

def endings : List String := ["txt", "log", "trace"]

def isTrace (name : String) : Bool :=
  let parts := splitAt '.' name.toList
  parts.length > 1 && endings.any fun ending =>
    lower (parts.getLast?.getD []) == ending.toList

def isNameChar (c : Char) : Bool :=
  c.isAlphanum || c == '_' || c == '.' || c == '-'

def isEdge (c : Char) : Bool :=
  c == '.' || c == '_'

/-- A name in ASCII letters, digits, underscores, points and hyphens, with neither points nor
underscores at its ends. Slashes and blanks part its words, which underscores join. -/
def safe (name : String) : String :=
  let folded := name.toList.flatMap asciiFold
  let parted := folded.map fun c => if c == '/' then ' ' else c
  let joined := ['_'].intercalate (words parted)
  String.ofList (dropEndWhile isEdge ((joined.filter isNameChar).dropWhile isEdge))

end CallTimeline.Service.Upload
