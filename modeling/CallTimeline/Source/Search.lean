import CallTimeline.Kernel.Symbol
import CallTimeline.Source.Definition
import CallTimeline.Source.Files
import CallTimeline.Source.Location
import CallTimeline.Source.Shelf

/-!
# Searching for a definition

A search goes through the source files in order and collects every line that opens a definition of
the base symbol; the first one gives the body. Texts and lines that do not hold the symbol as a
word are passed over without a closer look.
-/

namespace CallTimeline.Source

structure Found where
  file : String
  line : Nat
  body : Body
  candidates : List (String × Nat)

inductive Outcome where
  | found (definition : Found)
  | missing
  | timedOut

/-- The definition test with settings: without a window size there is no answer for a line that
looks like a definition. -/
def Settings.opensDefinition (settings : Settings) (symbol : List Char) (inComment : Bool)
    (lines : List (List Char)) : Except Fault Bool :=
  match settings.contextLines with
  | some context => .ok (Source.opensDefinition context symbol inComment lines)
  | none =>
    if lines.head?.any fun line => (declarator? symbol line inComment).isSome then
      .error Settings.missingNumber
    else .ok false

def definitionLines (settings : Settings) (symbol : List Char) (inComment : Bool) (number : Nat)
    (done : List Nat) (lines : List (List Char)) : Except Fault (List Nat) :=
  match lines with
  | [] => .ok done.reverse
  | line :: rest => do
    let after := (strip inComment (Text.chomp line)).2
    let opens ←
      -- Most lines lack the word, and the test would read a window of lines for each.
      if hasWord symbol none line then
        settings.opensDefinition symbol inComment (line :: rest)
      else .ok false
    definitionLines settings symbol after (number + 1) (if opens then number :: done else done) rest

def definitionsIn (settings : Settings) (symbol : List Char) (text : List Char) :
    Except Fault (List Nat) :=
  if Text.occurs symbol text then
    definitionLines settings symbol false 1 [] (Text.sourceLines text)
  else .ok []

structure First where
  file : String
  line : Nat
  text : List Char

def scan (settings : Settings) (tree : FileTree) (symbol : List Char) (shelf : Shelf)
    (first : Option First) (candidates : List (String × Nat)) :
    List SourceFile → Shelf × Except Fault (Option First × List (String × Nat))
  | [] => (shelf, .ok (first, candidates.reverse))
  | file :: rest =>
    match shelf.take tree file.path with
    | (none, shelf) => scan settings tree symbol shelf first candidates rest
    | (some text, shelf) =>
      match definitionsIn settings symbol text with
      | .error fault => (shelf, .error fault)
      | .ok numbers =>
        let first := first.or (numbers.head?.map fun line => { file := file.relative, line, text })
        scan settings tree symbol shelf first
          ((numbers.map fun line => (file.relative, line)).reverse ++ candidates) rest

def search (settings : Settings) (root : Root) (shelf : Shelf) (function : String) :
    Shelf × Except Fault Outcome :=
  let symbol := (Kernel.baseSymbol function).toList
  match settings.isExpired with
  | .error fault => (shelf, .error fault)
  | .ok expired =>
    let files := root.files settings
    -- The clock is looked at before each file, so without files no time is over.
    if expired && !files.isEmpty then (shelf, .ok .timedOut)
    else
      let (shelf, result) := scan settings root.tree symbol shelf none [] files
      (shelf, do
        match ← result with
        | (none, _) => return .missing
        | (some first, candidates) =>
          let body ← settings.body (Text.sourceLines first.text) first.line
          return .found { file := first.file, line := first.line, body, candidates })

def Location.ofOutcome (function : String) : Outcome → Location
  | .found definition =>
    { function := .str function
      file := .str definition.file
      line := definition.line
      text := .str definition.body.text
      lineCount := definition.body.lineCount
      candidates := definition.candidates.map fun (file, line) => (.str file, line)
      status := .resolved
      bodyStatus := definition.body.status }
  | .missing => placeholder (.str function) .unresolved
  | .timedOut => placeholder (.str function) .timedOut

def resolve (settings : Settings) (root : Root) (shelf : Shelf) (function : String) :
    Shelf × Except Fault Location :=
  let (shelf, outcome) := search settings root shelf function
  (shelf, outcome.map (Location.ofOutcome function))

/-- The body that begins at a line of a file in which only line feeds end a line. A file that cannot
be read has an empty body. -/
def bodyOfFile (settings : Settings) (tree : FileTree) (path : String) (start : Int) :
    Except Fault Body :=
  match tree.read path with
  | .ok bytes =>
    settings.body (Text.lines (Text.unifyLineEnds (Text.Utf8.decodeIgnoring bytes))) start
  | .error .nulInPath => .error .nulInPath
  | .error _ => .ok (Body.ofLines [] .fallback)

end CallTimeline.Source
