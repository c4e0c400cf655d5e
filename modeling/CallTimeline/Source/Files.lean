import CallTimeline.FileTree.RealPath
import CallTimeline.Source.Settings

/-!
# Source files

The files that a search goes through, in order: the search directories as they are set, in each
directory its files by name before its subdirectories by name. Links to directories are not
entered, and a file that can be reached twice is taken once.
-/

namespace CallTimeline.Source

structure Root where
  tree : FileTree
  path : String

def Root.of (tree : FileTree) (path : String) : Root where
  tree
  path := Path.absolute tree.workingPath path

def sortNames {α : Type} (entries : List (String × α)) : List (String × α) :=
  entries.mergeSort fun a b => !decide (b.1 < a.1)

def leadsToDirectory (tree : FileTree) (place : List String) : Bool :=
  tree.isDirectory ("/" ++ "/".intercalate place)

mutual

/-- The files below a node, by the names from the node down; `place` is where the node stands. -/
def filesBelow (tree : FileTree) (place : List String) : Node → List (List String)
  | .dir entries =>
    let (files, directories) := splitEntries tree place entries
    (sortNames files).map (fun file => [file.1]) ++
      (sortNames directories).flatMap fun (name, below) => below.map (name :: ·)
  | _ => []

def splitEntries (tree : FileTree) (place : List String) :
    List (String × Node) → List (String × Unit) × List (String × List (List String))
  | [] => ([], [])
  | (name, .dir entries) :: rest =>
    let (files, directories) := splitEntries tree place rest
    (files, (name, filesBelow tree (place ++ [name]) (.dir entries)) :: directories)
  | (name, .link _) :: rest =>
    let (files, directories) := splitEntries tree place rest
    -- A link to a directory is neither entered nor a file.
    if leadsToDirectory tree (place ++ [name]) then (files, directories)
    else ((name, ()) :: files, directories)
  | (name, .file _) :: rest =>
    let (files, directories) := splitEntries tree place rest
    ((name, ()) :: files, directories)

end

structure SourceFile where
  path : String
  relative : String
  real : List String

def hasExtension (extensions : List String) (name : String) : Bool :=
  extensions.any fun ending => ending.toList.isSuffixOf name.toList

def Root.filesIn (root : Root) (settings : Settings) (directory : String) : List SourceFile :=
  let base := Path.join root.path directory
  match root.tree.locate true base with
  | .ok (.found place) =>
    match root.tree.root.at? place with
    | some node =>
      (((filesBelow root.tree place node).filter fun names =>
        hasExtension settings.extensions (names.getLast?.getD ""))).map fun names =>
          let path := Path.join base ("/".intercalate names)
          { path
            relative := Path.relative path root.path
            real := root.tree.realPlace (place ++ names) }
    | none => []
  | _ => []

/-- Keeps the first of the files that are really one. -/
def firstOfEach (seen : List (List String)) : List SourceFile → List SourceFile
  | [] => []
  | file :: rest =>
    if seen.contains file.real then firstOfEach seen rest
    else file :: firstOfEach (file.real :: seen) rest

def Root.files (root : Root) (settings : Settings) : List SourceFile :=
  firstOfEach [] (settings.searchDirs.flatMap (root.filesIn settings))

end CallTimeline.Source
