import CallTimeline.Number.Double

namespace CallTimeline.Double

def hundredths (value : Nat) : String :=
  let cents := value % 100
  toString (value / 100) ++ "." ++ (if cents < 10 then "0" else "") ++ toString cents

def twoPlaces (x : Float) : String :=
  let signed (negative : Bool) (text : String) := if negative then "-" ++ text else text
  match shape x with
  | .nan => "nan"
  | .infinite negative => signed negative "inf"
  | .finite negative mantissa exponent =>
    let (num, den) := scaled (100 * mantissa) 1 (-exponent)
    signed negative (hundredths (roundDiv num den))

end CallTimeline.Double
