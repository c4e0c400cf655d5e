import CallTimeline.Source.Code

/-!
# Function bodies

The lines of a function from its first line to the one on which its braces balance again. The
opening brace has to come soon; if it does not, a slice of fixed size stands in for the body.
-/

namespace CallTimeline.Source

inductive BodyStatus where
  | complete
  /-- No brace opened; the lines are a slice of fixed size. -/
  | fallback
  /-- The braces did not balance within the limit. -/
  | overrun
  | none
deriving Repr, DecidableEq

namespace BodyStatus

def word : BodyStatus → String
  | complete => "complete"
  | fallback => "fallback"
  | overrun => "overrun"
  | none => "none"

def all : List BodyStatus := [complete, fallback, overrun, none]

end BodyStatus

structure Body where
  text : String
  lineCount : Nat
  status : BodyStatus
deriving Repr, DecidableEq

structure Limits where
  /-- The lines within which a brace has to open. -/
  lookahead : Int := 5
  /-- The size of the slice that stands in for a body. -/
  fallback : Int := 30
  /-- The most lines of a body. -/
  maxLines : Int := 200
deriving Repr, DecidableEq

namespace Body

def ofLines (lines : List (List Char)) (status : BodyStatus) : Body where
  text := String.ofList lines.flatten
  lineCount := lines.length
  status

def balance (code : List Char) : Int :=
  (code.count '\x7b' : Int) - code.count '\x7d'

/-- Where the first brace opens: the lines up to there, the balance and the comment state behind
them. -/
structure Opening where
  lines : Nat
  balance : Int
  inComment : Bool

def opening? (inComment : Bool) (limit : Nat) : List (List Char) → Option Opening
  | [] => none
  | line :: rest =>
    match limit with
    | 0 => none
    | limit + 1 =>
      let (code, inComment) := strip inComment line
      if code.contains '\x7b' then some { lines := 1, balance := balance code, inComment }
      else (opening? inComment limit rest).map fun opening =>
        { opening with lines := opening.lines + 1 }

/-- How many of at most `limit` lines it takes until the balance is no longer positive, and whether
that happens. -/
def closing (inComment : Bool) (open_ : Int) (limit : Nat) : List (List Char) → Nat × Bool
  | [] => (0, false)
  | line :: rest =>
    match limit with
    | 0 => (0, false)
    | limit + 1 =>
      let (code, inComment) := strip inComment line
      let open_ := open_ + balance code
      if open_ ≤ 0 then (1, true)
      else
        let (count, closed) := closing inComment open_ limit rest
        (count + 1, closed)

def sliceLength (total start : Nat) (size : Int) : Nat :=
  let stop := min (total : Int) (start + size)
  -- A negative end counts from the end of the text.
  let stop := if stop < 0 then max 0 (total + stop) else stop
  (stop - start).toNat

def extract (limits : Limits) (lines : List (List Char)) (start : Int) : Body :=
  if start < 1 ∨ lines.length < start then ofLines [] .fallback
  else
    let index := (start - 1).toNat
    let rest := lines.drop index
    match opening? false limits.lookahead.toNat rest with
    | none => ofLines (rest.take (sliceLength lines.length index limits.fallback)) .fallback
    | some opening =>
      -- The braces may close again on the line on which the first one opens.
      if opening.balance ≤ 0 then ofLines (rest.take opening.lines) .complete
      else
        let (count, closed) := closing opening.inComment opening.balance
          (limits.maxLines - opening.lines).toNat (rest.drop opening.lines)
        ofLines (rest.take (opening.lines + count)) (if closed then .complete else .overrun)

end Body

end CallTimeline.Source
