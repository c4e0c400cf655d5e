/-!
# Lower case, as ASCII patterns see it

`lower` agrees with full lower-casing in every ASCII character of the result: besides the capital
letters of ASCII, only the dotted capital I and the Kelvin sign become ASCII letters. So a search
for an ASCII pattern finds the same places in both.
-/

namespace CallTimeline.Text

def lowerChar (c : Char) : List Char :=
  if c == '\u0130' then ['i', '\u0307']
  else if c == '\u212A' then ['k']
  else [c.toLower]

def lower (s : List Char) : List Char :=
  s.flatMap lowerChar

end CallTimeline.Text
