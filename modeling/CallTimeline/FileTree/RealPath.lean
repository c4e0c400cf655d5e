import CallTimeline.FileTree.Locate

/-!
# Real paths

The place that an absolute path means once its links are resolved. Names that lead nowhere stay as
they are, and a link that leads back to itself stands for its own place.
-/

namespace CallTimeline.FileTree

/-- Follows `names` from `here`. `active` are the links that are being resolved; the flag tells
whether none of them was met again. `fuel` bounds the links on one way. -/
def realFrom (root : Node) (fuel : Nat) (active : List (List String)) (here : List String)
    (names : List String) : List String × Bool :=
  match names with
  | [] => (here, true)
  | name :: rest =>
    if name == "" || name == "." then realFrom root fuel active here rest
    else if name == ".." then realFrom root fuel active here.dropLast rest
    else
      let next := here ++ [name]
      match root.at? next with
      | some (.link target) =>
        match fuel with
        | 0 => (next ++ rest, false)
        | fuel + 1 =>
          -- A link that leads back to itself stays, with all names behind it.
          if active.contains next then (next ++ rest, false)
          else
            let start := if Path.isAbsolute target then [] else here
            match realFrom root fuel (next :: active) start (Path.segments target) with
            | (place, false) => (place ++ rest, false)
            | (place, true) => realFrom root fuel active place rest
      | _ => realFrom root fuel active next rest
termination_by (fuel, names.length)

/-- More links than a way can have before one of them is met again. -/
def realPathFuel : Nat := 1000

def realPlace (tree : FileTree) (place : List String) : List String :=
  Path.resolveDots true [] (realFrom tree.root realPathFuel [] [] place).1

end CallTimeline.FileTree
