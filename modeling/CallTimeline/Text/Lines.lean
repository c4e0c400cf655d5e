/-!
# Cutting text into lines

Every line keeps its terminator, so the lines of a text concatenate to it. What ends a line is a
parameter: a trace is cut after line feeds, source text also after the other separators that
`isLineEnd` lists. A carriage return and the line feed after it end one line.
-/

namespace CallTimeline.Text

def isLineEnd (c : Char) : Bool :=
  let n := c.toNat
  (10 ≤ n && n ≤ 13) || (28 ≤ n && n ≤ 30) || n == 0x85 || n == 0x2028 || n == 0x2029

/-- Cuts behind the characters in `ends`; `line` and `done` are the open line and the lines before
it, reversed. -/
def cutLines.go (ends : Char → Bool) (line : List Char) (done : List (List Char)) :
    List Char → List (List Char)
  | [] => (if line.isEmpty then done else line.reverse :: done).reverse
  | c :: rest =>
    if ends c && !(c == '\r' && rest.head? == some '\n') then
      go ends [] ((c :: line).reverse :: done) rest
    else go ends (c :: line) done rest

def cutLines (ends : Char → Bool) (text : List Char) : List (List Char) :=
  cutLines.go ends [] [] text

def lines (text : List Char) : List (List Char) :=
  cutLines (· == '\n') text

def sourceLines (text : List Char) : List (List Char) :=
  cutLines isLineEnd text

def unifyLineEnds.go (done : List Char) : List Char → List Char
  | [] => done.reverse
  | '\r' :: '\n' :: rest => go ('\n' :: done) rest
  | '\r' :: rest => go ('\n' :: done) rest
  | c :: rest => go (c :: done) rest

/-- Writes every carriage return, with the line feed after it if there is one, as a line feed. -/
def unifyLineEnds (text : List Char) : List Char :=
  unifyLineEnds.go [] text

end CallTimeline.Text
