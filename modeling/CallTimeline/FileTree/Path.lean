import CallTimeline.Text.Search

namespace CallTimeline.Path

open Text

def segments (path : String) : List String :=
  (splitAt '/' path.toList).map String.ofList

def isAbsolute (path : String) : Bool :=
  path.toList.head? == some '/'

def join (base path : String) : String :=
  if isAbsolute path || base.isEmpty then path
  else if base.toList.getLast? == some '/' then base ++ path
  else base ++ "/" ++ path

/-- The slashes that stay at the beginning: two are kept, any other number is one. -/
def anchor (path : String) : String :=
  match path.toList with
  | '/' :: '/' :: '/' :: _ => "/"
  | '/' :: '/' :: _ => "//"
  | '/' :: _ => "/"
  | _ => ""

/-- Takes `..` back against the segment before it. `done` is reversed. -/
def resolveDots (absolute : Bool) (done : List String) : List String → List String
  | [] => done.reverse
  | segment :: rest =>
    if segment == "" || segment == "." then resolveDots absolute done rest
    else if segment != ".." then resolveDots absolute (segment :: done) rest
    else
      match done with
      | [] => resolveDots absolute (if absolute then [] else [".."]) rest
      | last :: before =>
        resolveDots absolute (if last == ".." then ".." :: done else before) rest

def normalize (path : String) : String :=
  let text := anchor path ++ "/".intercalate (resolveDots (isAbsolute path) [] (segments path))
  if text.isEmpty then "." else text

def absolute (directory path : String) : String :=
  normalize (join directory path)

def lastSegment (path : String) : String :=
  (segments path).getLast?.getD ""

def dropCommon : List String → List String → List String × List String
  | a :: as, b :: bs => if a == b then dropCommon as bs else (a :: as, b :: bs)
  | as, bs => (as, bs)

def relative (path start : String) : String :=
  let (down, up) := dropCommon ((segments (normalize path)).filter (· != ""))
    ((segments (normalize start)).filter (· != ""))
  let steps := up.map (fun _ => "..") ++ down
  if steps.isEmpty then "." else "/".intercalate steps

end CallTimeline.Path

namespace CallTimeline

/-- A path as a beginning and names: empty segments and single points are gone. -/
structure PlainPath where
  anchor : String
  names : List String
deriving Repr, DecidableEq

namespace PlainPath

def ofText (text : String) : PlainPath where
  anchor := Path.anchor text
  names := (Path.segments text).filter fun segment => segment != "" && segment != "."

def text (path : PlainPath) : String :=
  let text := path.anchor ++ "/".intercalate path.names
  if text.isEmpty then "." else text

/-- An absolute `name` stands for itself. -/
def child (path : PlainPath) (name : String) : PlainPath :=
  let below := ofText name
  if below.anchor.isEmpty then { path with names := path.names ++ below.names } else below

def parent (path : PlainPath) : PlainPath :=
  { path with names := path.names.dropLast }

end PlainPath

end CallTimeline
