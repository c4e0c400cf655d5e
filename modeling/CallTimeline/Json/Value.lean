namespace CallTimeline

inductive Json where
  | null
  | bool (value : Bool)
  | int (value : Int)
  | real (value : Float)
  | str (value : String)
  | arr (items : List Json)
  | obj (fields : List (String × Json))
deriving Repr, Inhabited

namespace Json

abbrev Fields := List (String × Json)

namespace Fields

def get? (fields : Fields) (key : String) : Option Json :=
  fields.lookup key

def has (fields : Fields) (key : String) : Bool :=
  (fields.lookup key).isSome

def set (fields : Fields) (key : String) (value : Json) : Fields :=
  match fields with
  | [] => [(key, value)]
  | field :: rest => if field.1 == key then (key, value) :: rest else field :: set rest key value

/-- Writes fields one after the other, so that of several with one name the last value stands in
the first place. -/
def ofPairs (pairs : List (String × Json)) : Fields :=
  pairs.foldl (fun fields pair => fields.set pair.1 pair.2) []

def update (fields changes : Fields) : Fields :=
  changes.foldl (fun fields pair => fields.set pair.1 pair.2) fields

end Fields

/-- Everything but `null`, `false`, zeros and what is empty. -/
def isTruthy : Json → Bool
  | null => false
  | bool value => value
  | int value => value != 0
  | real value => value != 0.0
  | str value => !value.isEmpty
  | arr items => !items.isEmpty
  | obj fields => !fields.isEmpty

end Json

end CallTimeline
