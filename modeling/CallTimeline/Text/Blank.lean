/-!
# Blank characters, trimming and words

`isBlank` is the separator class of the whole library: spaces and line ends of every script and
the four information separators. `trim` removes blanks at both ends, `words` cuts at runs of them.
-/

namespace CallTimeline.Text

/-- Tab to carriage return, the information separators `U+001C` to `U+001F`, the space, and the
space and line separators above ASCII. -/
def isBlank (c : Char) : Bool :=
  let n := c.toNat
  (9 ≤ n && n ≤ 13) || (28 ≤ n && n ≤ 32) || n == 0x85 || n == 0xA0 || n == 0x1680 ||
    (0x2000 ≤ n && n ≤ 0x200A) || n == 0x2028 || n == 0x2029 || n == 0x202F || n == 0x205F ||
    n == 0x3000

/-- What is left before the longest ending of `s` in which `p` holds throughout. -/
def dropEndWhile (p : Char → Bool) (s : List Char) : List Char :=
  (s.reverse.dropWhile p).reverse

def trim (s : List Char) : List Char :=
  dropEndWhile isBlank (s.dropWhile isBlank)

def chomp (line : List Char) : List Char :=
  dropEndWhile (fun c => c == '\r' || c == '\n') line

def words : List Char → List (List Char)
  | [] => []
  | c :: rest =>
    if isBlank c then words rest
    else if rest.head?.all isBlank then [c] :: words rest
    else match words rest with
      | [] => [[c]]
      | word :: more => (c :: word) :: more

end CallTimeline.Text
