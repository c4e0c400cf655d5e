import CallTimeline.Text.Printable

/-!
# Quoted text

How messages show a text: in single quotes, or in double quotes when it holds single quotes only.
The quote, the backslash and everything unprintable are escaped, code points in hexadecimal.
-/

namespace CallTimeline.Text

/-- The last `width` hexadecimal digits of `n`, and more where `n` has more. -/
def hexPadded (width n : Nat) : List Char :=
  let digits := Nat.toDigits 16 n
  List.replicate (width - digits.length) '0' ++ digits

def escapeShown (quote c : Char) : List Char :=
  if c == quote || c == '\\' then ['\\', c]
  else if c == '\t' then ['\\', 't']
  else if c == '\n' then ['\\', 'n']
  else if c == '\r' then ['\\', 'r']
  else if isPrintable c then [c]
  else if c.toNat < 0x100 then '\\' :: 'x' :: hexPadded 2 c.toNat
  else if c.toNat < 0x10000 then '\\' :: 'u' :: hexPadded 4 c.toNat
  else '\\' :: 'U' :: hexPadded 8 c.toNat

def quoted (text : String) : String :=
  let s := text.toList
  let quote := if s.contains '\'' && !s.contains '"' then '"' else '\''
  String.ofList (quote :: s.flatMap (escapeShown quote) ++ [quote])

end CallTimeline.Text
