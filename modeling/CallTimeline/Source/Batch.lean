import CallTimeline.Source.Search

/-!
# Resolving many functions

Every distinct name is resolved once, in the order of first appearance. A search that fails leaves
a placeholder and a complaint, and the others go on.

A batch is resolved with one shelf, or it is shared out among workers that have a shelf for each
name. The results of a shared batch are waited for until a common deadline.
-/

namespace CallTimeline.Source

structure Resolution where
  location : Location
  complaint : Option Fault

inductive Ending where
  | done (location : Location)
  /-- The deadline of the batch came first. -/
  | late
  | failed (fault : Fault)

def Resolution.ofEnding (name : Json) : Ending → Resolution
  | .done location => { location, complaint := none }
  | .late => { location := Location.placeholder name .timedOut, complaint := none }
  | .failed fault => { location := Location.placeholder name .unresolved, complaint := some fault }

def searchName (settings : Settings) (root : Root) (shelf : Shelf) (name : Json) : Shelf × Ending :=
  match name with
  | .str function =>
    match resolve settings root shelf function with
    | (shelf, .ok location) => (shelf, .done location)
    | (shelf, .error fault) => (shelf, .failed fault)
  | value =>
    (shelf, .failed (.mismatch ("expected string or bytes-like object, got '" ++ value.kind ++ "'")))

def resolveEach (settings : Settings) (root : Root) (shelf : Shelf) :
    List Json → List Resolution
  | [] => []
  | name :: rest =>
    let (shelf, ending) := searchName settings root shelf name
    Resolution.ofEnding name ending :: resolveEach settings root shelf rest

def Settings.workersOf (settings : Settings) (processors : Nat) : Int :=
  match settings.workers with
  | some workers => if workers = 0 then processors else workers
  | none => processors

def isShared (settings : Settings) (processors : Nat) (names : List Json) : Bool :=
  1 < names.length && 1 < settings.workersOf processors

def roundsOf (settings : Settings) (processors : Nat) (names : List Json) : Nat :=
  let workers := min (settings.workersOf processors).toNat names.length
  (names.length + workers - 1) / workers

/-- The seconds that the results may take on top of the searches. -/
def graceSeconds : Float := 5.0

def longestWait : Float := 9223372036.0

/-- The seconds until the common deadline of some rounds of searches, which have to be a double. -/
def Settings.patience (settings : Settings) (rounds : Nat) : Except Fault (Option Float) :=
  match settings.timeout with
  | none => .ok none
  | some (.int seconds) => do
    let seconds ← Json.realOfInt (rounds * seconds)
    return some (seconds + graceSeconds)
  | some (.real seconds) => .ok (some (Double.ofInt rounds * seconds + graceSeconds))

/-- How a search ends for the one who waits for it, if it ends before there is a result: the
deadline is over, or it is too far away. -/
def cutShort? (patience : Option Float) : Option Ending :=
  match patience with
  | none => none
  | some seconds =>
    if 0.0 < seconds then
      if longestWait < seconds then some (.failed .endlessWait) else none
    else some .late

/-- How all searches of a batch end early, if they do. Nothing is waited for in a batch that is not
shared. -/
def Settings.cutShort? (settings : Settings) (processors : Nat) (names : List Json) :
    Except Fault (Option Ending) :=
  if isShared settings processors names then
    (settings.patience (roundsOf settings processors names)).map Source.cutShort?
  else .ok none

def resolveApart (settings : Settings) (root : Root) (early : Option Ending) (names : List Json) :
    List Resolution :=
  names.map fun name =>
    Resolution.ofEnding name (early.getD (searchName settings root {} name).2)

def resolveAll (settings : Settings) (root : Root) (processors : Nat) (names : List Json) :
    Except Fault (List Resolution) := do
  names.forM Json.checkName
  let names := Json.distinctNames names
  let early ← settings.cutShort? processors names
  return if isShared settings processors names then resolveApart settings root early names
    else resolveEach settings root {} names

structure Report where
  done : Nat
  total : Nat
  resolution : Resolution

def reports (resolutions : List Resolution) : List Report :=
  resolutions.zipIdx.map fun (resolution, i) =>
    { done := i + 1, total := resolutions.length, resolution }

def Resolution.complaintLine? (resolution : Resolution) : Option String :=
  resolution.complaint.map fun fault =>
    "    Resolution error for " ++ resolution.location.function.display ++ ": " ++ fault.message

def locationsOf (resolutions : List Resolution) : Locations :=
  resolutions.map fun resolution => (resolution.location.function, resolution.location)

end CallTimeline.Source
