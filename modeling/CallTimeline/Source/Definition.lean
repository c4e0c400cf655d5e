import CallTimeline.Fault
import CallTimeline.Source.Code
import CallTimeline.Text.Search
import CallTimeline.Text.Word

/-!
# Definitions

Whether a line of source opens the definition of a function. The line has to name the function
before a parenthesis, with nothing but type words before it; then a window of lines is read, in
which an opening brace has to follow the argument list before any semicolon.
-/

namespace CallTimeline.Source

open Text

def extendsName (c : Char) : Bool :=
  isWord c || c == '$'

def behind? (symbol : List Char) (text : List Char) : Option (List Char) :=
  symbol.isPrefixOf? text

/-- Whether `symbol` stands in the text as a whole word; `previous` is the character before. -/
def hasWord (symbol : List Char) (previous : Option Char) (text : List Char) : Bool :=
  (!previous.any extendsName &&
    (behind? symbol text).any fun rest => !rest.head?.any extendsName) ||
  match text with
  | [] => false
  | c :: rest => hasWord symbol (some c) rest

/-- From the parenthesis on, if the text begins with `symbol`, blanks and a parenthesis. -/
def callAt? (symbol : List Char) (text : List Char) : Option (List Char) :=
  match (behind? symbol text).map (List.dropWhile isBlank) with
  | some ('(' :: rest) => some ('(' :: rest)
  | _ => none

def findCall? (symbol : List Char) (previous : Option Char) (text : List Char) :
    Option (List Char × List Char) :=
  match if previous.any extendsName then none else callAt? symbol text with
  | some call => some ([], call)
  | none =>
    match text with
    | [] => none
    | c :: rest => (findCall? symbol (some c) rest).map fun (before, call) => (c :: before, call)

/-- Whether what follows `before` on its line is code: a mark behind it survives `strip`. -/
def isCodeAfter (before : List Char) : Bool :=
  let (code, inComment) := strip false (before ++ ['\x00'])
  !inComment && code.contains '\x00'

def statementWords : List String :=
  ["return", "if", "else", "while", "for", "do", "switch", "case", "goto", "sizeof"]

def isDeclaratorChar (c : Char) : Bool :=
  isWord c || isBlank c || c == '*'

/-- Whether a text can stand before the name in a definition: type words and stars that do not
begin with a digit, and no word of a statement. -/
def isDeclarator (before : List Char) : Bool :=
  before.head?.all (fun c => (isAsciiWord c && !c.isDigit) || isBlank c || c == '*') &&
    before.all isDeclaratorChar &&
    (words (before.map fun c => if c == '*' then ' ' else c)).all fun word =>
      !statementWords.contains (String.ofList word)

def startsWithComment (text : List Char) : Bool :=
  "//".toList.isPrefixOf text || "/*".toList.isPrefixOf text || text.head? == some '*'

def declarator? (symbol : List Char) (line : List Char) (inComment : Bool) : Option (List Char) :=
  let line := chomp line
  let trimmed := trim line
  if inComment || startsWithComment trimmed then none
  else
    match findCall? symbol none line with
    | none => none
    | some (before, call) =>
      -- With nothing before it, the name has to begin the line.
      let declares :=
        if before.any (!isBlank ·) then isDeclarator before else !line.head?.any isBlank
      let isStatement := trimmed.getLast? == some ';' && !trimmed.contains '\x7b'
      if isCodeAfter before && declares && !isStatement then some call else none

def windowCode (inComment : Bool) : List (List Char) → List Char
  | [] => []
  | [line] => (strip inComment (chomp line)).1
  | line :: rest =>
    let (code, inComment) := strip inComment (chomp line)
    code ++ '\n' :: windowCode inComment rest

def afterArguments? (depth : Int) : List Char → Option (List Char)
  | [] => none
  | c :: rest =>
    if c == '(' then afterArguments? (depth + 1) rest
    else if c == ')' then
      if depth = 1 then some rest else afterArguments? (depth - 1) rest
    else afterArguments? depth rest

/-- Whether a brace follows the argument list with which a window begins, and no semicolon comes
first. -/
def opensBody (window : List Char) : Bool :=
  match afterArguments? 0 window with
  | none => false
  | some rest => rest.find? (fun c => c == '\x7b' || c == ';') == some '\x7b'

/-- Whether the first of `lines` opens a definition of `symbol`. The window holds `context` lines
behind the first. -/
def opensDefinition (context : Int) (symbol : List Char) (inComment : Bool)
    (lines : List (List Char)) : Bool :=
  match lines with
  | [] => false
  | line :: rest =>
    match declarator? symbol line inComment with
    | none => false
    -- A line inside a comment has been refused, so the window begins in code.
    | some call => opensBody (windowCode false ((call :: rest).take (context + 1).toNat))

def isDefinition (context : Int) (lines : List (List Char)) (index : Int) (symbol : List Char)
    (inComment : Bool) : Bool :=
  if index < 0 then false else opensDefinition context symbol inComment (lines.drop index.toNat)

end CallTimeline.Source
