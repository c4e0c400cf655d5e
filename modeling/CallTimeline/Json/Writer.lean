import CallTimeline.Json.Value
import CallTimeline.Number.Shortest
import CallTimeline.Text.Quoted

/-!
# Writing JSON

The output is ASCII: every other character is escaped by its UTF-16 units. `Json.indented` puts
each element on a line of its own, two spaces deeper per level, and `Json.compact` leaves out all
blanks.
-/

namespace CallTimeline.Json

def unitEscape (unit : Nat) : List Char :=
  '\\' :: 'u' :: Text.hexPadded 4 unit

def escapeChar (c : Char) : List Char :=
  if c == '"' || c == '\\' then ['\\', c]
  else if c == '\n' then ['\\', 'n']
  else if c == '\r' then ['\\', 'r']
  else if c == '\t' then ['\\', 't']
  else if c.toNat == 8 then ['\\', 'b']
  else if c.toNat == 12 then ['\\', 'f']
  else if 0x20 ≤ c.toNat && c.toNat ≤ 0x7E then [c]
  else if c.toNat < 0x10000 then unitEscape c.toNat
  else
    let offset := c.toNat - 0x10000
    unitEscape (0xD800 + offset / 0x400) ++ unitEscape (0xDC00 + offset % 0x400)

def writeString (s : String) : String :=
  String.ofList ('"' :: s.toList.flatMap escapeChar ++ ['"'])

def writeReal (x : Float) : String :=
  Double.write "NaN" "Infinity" x

structure Spacing where
  lineBreak : Nat → String
  colon : String

mutual

def append (spacing : Spacing) (depth : Nat) (out : String) : Json → String
  | null => out ++ "null"
  | bool value => out ++ (if value then "true" else "false")
  | int value => out ++ toString value
  | real value => out ++ writeReal value
  | str value => out ++ writeString value
  | arr [] => out ++ "[]"
  | arr (item :: items) =>
    appendItems spacing (depth + 1)
      (append spacing (depth + 1) (out ++ "[" ++ spacing.lineBreak (depth + 1)) item) items ++
      spacing.lineBreak depth ++ "]"
  | obj [] => out ++ "\x7b\x7d"
  | obj ((key, value) :: fields) =>
    appendFields spacing (depth + 1)
      (append spacing (depth + 1)
        (out ++ "\x7b" ++ spacing.lineBreak (depth + 1) ++ writeString key ++ spacing.colon) value)
      fields ++ spacing.lineBreak depth ++ "\x7d"

def appendItems (spacing : Spacing) (depth : Nat) (out : String) : List Json → String
  | [] => out
  | item :: items =>
    appendItems spacing depth (append spacing depth (out ++ "," ++ spacing.lineBreak depth) item)
      items

def appendFields (spacing : Spacing) (depth : Nat) (out : String) : List (String × Json) → String
  | [] => out
  | (key, value) :: fields =>
    appendFields spacing depth
      (append spacing depth
        (out ++ "," ++ spacing.lineBreak depth ++ writeString key ++ spacing.colon) value)
      fields

end

def indented (value : Json) : String :=
  append { lineBreak := fun depth => "\n" ++ String.ofList (List.replicate (2 * depth) ' '), colon := ": " }
    0 "" value

def compact (value : Json) : String :=
  append { lineBreak := fun _ => "", colon := ":" } 0 "" value

end CallTimeline.Json
