import CallTimeline.Json.Convert

/-!
# Values as names

Functions are named by text, but a document may put any value in a name's place. Two names are the
same if they are the same text or the same number, however it is written; text is ordered by code
points and numbers by size.
-/

namespace CallTimeline

namespace Double

def compareInt (x : Float) (i : Int) : Option Ordering :=
  match shape x with
  | .nan => none
  | .infinite negative => some (if negative then .lt else .gt)
  | .finite negative mantissa exponent =>
    let left : Int := (mantissa * power 2 exponent.toNat : Nat)
    let right : Int := i * (power 2 (-exponent).toNat : Nat)
    some (compare (if negative then -left else left) right)

end Double

namespace Json

/-- A value as a number: truth values are one and zero. -/
inductive Numeral where
  | int (value : Int)
  | real (value : Float)

def numeral? : Json → Option Numeral
  | bool value => some (.int (if value then 1 else 0))
  | int value => some (.int value)
  | real value => some (.real value)
  | _ => none

def Numeral.compare : Numeral → Numeral → Option Ordering
  | .int a, .int b => some (Ord.compare a b)
  | .real a, .int b => Double.compareInt a b
  | .int a, .real b => (Double.compareInt b a).map Ordering.swap
  | .real a, .real b =>
    if a < b then some .lt else if b < a then some .gt else if a == b then some .eq else none

def sameName (a b : Json) : Bool :=
  match a, b with
  | null, null => true
  | str a, str b => a == b
  | a, b =>
    match a.numeral?, b.numeral? with
    | some a, some b => a.compare b == some .eq
    | _, _ => false

def comparable (a b : Json) : Bool :=
  match a, b with
  | str _, str _ => true
  | a, b => a.numeral?.isSome && b.numeral?.isSome

def nameLE (a b : Json) : Bool :=
  match a, b with
  | str a, str b => !decide (b < a)
  | a, b =>
    match a.numeral?, b.numeral? with
    | some a, some b => b.compare a != some .lt
    | _, _ => true

def clash? : List Json → Option (Json × Json)
  | a :: b :: rest => if comparable a b then clash? (b :: rest) else some (a, b)
  | _ => none

def sortByName {α : Type} (pairs : List (Json × α)) : Except Fault (List (Json × α)) :=
  match clash? (pairs.map (·.1)) with
  | some (a, b) => .error (.mismatch
      ("'<' not supported between instances of '" ++ b.kind ++ "' and '" ++ a.kind ++ "'"))
  | none => .ok (pairs.mergeSort fun a b => nameLE a.1 b.1)

def distinctNames (names : List Json) : List Json :=
  (names.foldl (fun seen name => if seen.any (sameName name) then seen else name :: seen) []).reverse

end Json

end CallTimeline
