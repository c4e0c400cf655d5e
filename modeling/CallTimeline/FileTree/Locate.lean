import CallTimeline.Fault
import CallTimeline.FileTree.Node

/-!
# Finding the way

A path is followed from the working directory, name by name and through links, as the system does
it: a name has at most 255 bytes, a path less than 4096, and at most 40 links are followed on one
way.
-/

namespace CallTimeline

structure FileTree where
  root : Node
  workingDirectory : List String

namespace FileTree

inductive Place where
  | found (place : List String)
  | free (directory : List String) (name : String)

def maxName : Nat := 255
def maxPath : Nat := 4096
def maxLinks : Nat := 40

def follow (root : Node) (followLast : Bool) (links : Nat) (here : List String)
    (names : List String) : Except FileTrouble Place :=
  match names with
  | [] => .ok (.found here)
  | name :: rest =>
    match root.at? here with
    | some (.dir entries) =>
      if name == "" || name == "." then follow root followLast links here rest
      else if name == ".." then follow root followLast links here.dropLast rest
      else if maxName < name.utf8ByteSize then .error .nameTooLong
      else
        match entries.lookup name with
        | none => if rest.isEmpty then .ok (.free here name) else .error .missing
        | some (.link target) =>
          if rest.isEmpty && !followLast then .ok (.found (here ++ [name]))
          else
            match links with
            | 0 => .error .tooManyLinks
            | links + 1 =>
              if target.isEmpty then .error .missing
              else
                follow root followLast links (if Path.isAbsolute target then [] else here)
                  (Path.segments target ++ rest)
        | some _ => follow root followLast links (here ++ [name]) rest
    | _ => .error .notDirectory
termination_by (links, names.length)

def place (tree : FileTree) (followLast : Bool) (path : String) : Except FileTrouble Place :=
  if path.isEmpty then .error .missing
  else if maxPath ≤ path.utf8ByteSize then .error .nameTooLong
  else
    follow tree.root followLast maxLinks (if Path.isAbsolute path then [] else tree.workingDirectory)
      (Path.segments path)

def locate (tree : FileTree) (followLast : Bool) (path : String) : Except Fault Place :=
  if path.contains '\x00' then .error .nulInPath
  else (tree.place followLast path).mapError fun trouble => .file trouble path

def workingPath (tree : FileTree) : String :=
  "/" ++ "/".intercalate tree.workingDirectory

def isDirectory (tree : FileTree) (path : String) : Bool :=
  match tree.locate true path with
  | .ok (.found place) => match tree.root.at? place with
    | some (.dir _) => true
    | _ => false
  | _ => false

def read (tree : FileTree) (path : String) : Except Fault (List UInt8) := do
  match ← tree.locate true path with
  | .free .. => throw (.file .missing path)
  | .found place =>
    match tree.root.at? place with
    | some (.file bytes) => return bytes
    | _ => throw (.file .isDirectory path)

def write (tree : FileTree) (path : String) (bytes : List UInt8) : Except Fault FileTree := do
  match ← tree.locate true path with
  | .free directory name =>
    return { tree with root := tree.root.put (.file bytes) (directory ++ [name]) }
  | .found place =>
    match tree.root.at? place with
    | some (.file _) => return { tree with root := tree.root.put (.file bytes) place }
    | _ => throw (.file .isDirectory path)

def remove (tree : FileTree) (path : String) : Except Fault FileTree := do
  -- A link at the end is taken away itself.
  match ← tree.locate false path with
  | .free .. => throw (.file .missing path)
  | .found place =>
    match tree.root.at? place with
    | some (.dir _) => throw (.file .isDirectory path)
    | _ => return { tree with root := tree.root.erase place }

def makeDirectory (tree : FileTree) (path : String) : Except Fault FileTree := do
  -- A link at the end is in the way, wherever it leads.
  match ← tree.locate false path with
  | .found _ => throw (.file .exists path)
  | .free directory name =>
    return { tree with root := tree.root.put (.dir []) (directory ++ [name]) }

def keepDirectory (tree : FileTree) (path : String) (fault : Fault) : Except Fault FileTree :=
  match fault with
  | .file .. => if tree.isDirectory path then .ok tree else .error fault
  | _ => .error fault

/-- Makes a directory and those above it; one that is there is kept. `above` bounds how far up it
goes. -/
def makeDirectories (tree : FileTree) (above : Nat) (path : PlainPath) :
    FileTree × Except Fault Unit :=
  match tree.makeDirectory path.text with
  | .ok tree => (tree, .ok ())
  | .error (.file .missing text) =>
    match above with
    | 0 => (tree, .error (.file .missing text))
    | above + 1 =>
      match tree.makeDirectories above path.parent with
      | (tree, .error fault) => (tree, .error fault)
      | (tree, .ok ()) =>
        match tree.makeDirectory path.text with
        | .ok tree => (tree, .ok ())
        | .error fault =>
          match fault with
          | .file .missing _ => (tree, .error fault)
          | _ => (tree, (tree.keepDirectory path.text fault).map fun _ => ())
  | .error fault => (tree, (tree.keepDirectory path.text fault).map fun _ => ())

def workingFiles (tree : FileTree) : List (String × List UInt8) :=
  match tree.root.at? tree.workingDirectory with
  | some node => (node.files []).map fun (place, bytes) => ("/".intercalate place, bytes)
  | none => []

end FileTree

end CallTimeline
