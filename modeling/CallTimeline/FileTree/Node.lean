import CallTimeline.FileTree.Path

namespace CallTimeline

inductive Node where
  | file (bytes : List UInt8)
  | link (target : String)
  | dir (entries : List (String × Node))
deriving Repr, Inhabited

namespace Node

def setEntry (name : String) (node : Node) : List (String × Node) → List (String × Node)
  | [] => [(name, node)]
  | entry :: rest =>
    if entry.1 == name then (name, node) :: rest else entry :: setEntry name node rest

def at? (node : Node) : List String → Option Node
  | [] => some node
  | name :: rest =>
    match node with
    | .dir entries =>
      match entries.lookup name with
      | some below => below.at? rest
      | none => none
    | _ => none

def put (node : Node) (new : Node) : List String → Node
  | [] => new
  | [name] =>
    match node with
    | .dir entries => .dir (setEntry name new entries)
    | other => other
  | name :: rest =>
    match node with
    | .dir entries =>
      match entries.lookup name with
      | some below => .dir (setEntry name (below.put new rest) entries)
      | none => node
    | other => other

def erase (node : Node) : List String → Node
  | [] => node
  | [name] =>
    match node with
    | .dir entries => .dir (entries.filter (·.1 != name))
    | other => other
  | name :: rest =>
    match node with
    | .dir entries =>
      match entries.lookup name with
      | some below => .dir (setEntry name (below.erase rest) entries)
      | none => node
    | other => other

mutual

def files (place : List String) : Node → List (List String × List UInt8)
  | .file bytes => [(place, bytes)]
  | .link _ => []
  | .dir entries => filesIn place entries

def filesIn (place : List String) : List (String × Node) → List (List String × List UInt8)
  | [] => []
  | (name, node) :: rest => node.files (place ++ [name]) ++ filesIn place rest

end

end Node

end CallTimeline
