import CallTimeline.FileTree.Locate
import CallTimeline.Source.Location

namespace CallTimeline

structure Host where
  now : String
  stamp : String
  elapsed : String
  release : String
  processors : Nat

structure Session where
  host : Host
  tree : FileTree
  output : String := ""
  locations : Source.Locations := []

abbrev Work := ExceptT Fault (StateM Session)

namespace Work

def print (line : String) : Work Unit :=
  modify fun session => { session with output := session.output ++ line ++ "\n" }

def tree : Work FileTree :=
  return (← get).tree

def host : Work Host :=
  return (← get).host

/-- Does something to the files. What it did before a fault stays. -/
def onFiles {α : Type} (action : FileTree → FileTree × Except Fault α) : Work α := do
  let session ← get
  let (tree, result) := action session.tree
  set { session with tree }
  liftExcept result
where
  liftExcept : Except Fault α → Work α
    | .ok value => return value
    | .error fault => throw fault

def contents (path : String) : Work (List UInt8) := do
  (← tree).read path

def store (path : String) (bytes : List UInt8) : Work Unit :=
  onFiles fun tree =>
    match tree.write path bytes with
    | .ok tree => (tree, .ok ())
    | .error fault => (tree, .error fault)

def discard (path : String) : Work Unit :=
  onFiles fun tree =>
    match tree.remove path with
    | .ok tree => (tree, .ok ())
    | .error fault => (tree, .error fault)

def makeDirectories (path : PlainPath) : Work Unit :=
  onFiles fun tree => tree.makeDirectories (path.names.length + 1) path

end Work

end CallTimeline
