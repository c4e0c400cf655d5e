import CallTimeline.FileTree.Locate
import CallTimeline.Text.Lines
import CallTimeline.Text.Utf8

/-!
# The shelf of file texts

Files that have been read stay at hand, up to a fixed number; the one that was used the longest
time ago makes room for a new one. A text on the shelf is used even if the file has changed.
-/

namespace CallTimeline.Source

structure Shelf where
  /-- Last used first; `none` for a file that could not be read. -/
  texts : List (String × Option (List Char)) := []
  hits : Nat := 0
  misses : Nat := 0

namespace Shelf

def capacity : Nat := 256

/-- The text of a source file: bytes that are no UTF-8 are left out and line ends unified. -/
def load (tree : FileTree) (path : String) : Option (List Char) :=
  match tree.read path with
  | .ok bytes => some (Text.unifyLineEnds (Text.Utf8.decodeIgnoring bytes))
  | .error _ => none

def take (shelf : Shelf) (tree : FileTree) (path : String) : Option (List Char) × Shelf :=
  match shelf.texts.lookup path with
  | some text =>
    (text, { shelf with
      texts := (path, text) :: shelf.texts.filter (·.1 != path), hits := shelf.hits + 1 })
  | none =>
    let text := load tree path
    (text, { shelf with
      texts := ((path, text) :: shelf.texts).take capacity, misses := shelf.misses + 1 })

end Shelf

end CallTimeline.Source
