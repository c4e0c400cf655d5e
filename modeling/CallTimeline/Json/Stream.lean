import CallTimeline.Json.Reader

/-!
# Streaming

`Json.stream` gives the values that stand at one path of a text, in the order in which a reader
meets them, and what stopped it. Values before the place of an error are there all the same.

A path joins the keys and, for each list, the word `item` by points. A value at the path belongs to
the result as a whole; nothing inside it is looked at again.
-/

namespace CallTimeline.Json

def extendPath (path : Option String) (name : String) : Option String :=
  some (match path with
    | none => name
    | some path => path ++ "." ++ name)

/-- What a stream has given so far, reversed, and the text behind, if the reader got there. -/
abbrev Streamed := List Json × Except Number.Refusal Rest

mutual

def streamValue (dialect : Dialect) (target : String) (fuel : Nat) (path : Option String)
    (found : List Json) (text : List Char) : Streamed :=
  match fuel with
  | 0 => (found, malformed)
  | fuel + 1 =>
    if path == some target then
      match readValue dialect (fuel + 1) text with
      | .ok (value, rest) => (value :: found, .ok rest)
      | .error refusal => (found, .error refusal)
    else
      match text with
      | '[' :: rest =>
        match rest.dropWhile dialect.isBlank with
        | ']' :: rest => (found, .ok rest)
        | rest => streamItems dialect target fuel (extendPath path "item") found rest
      | '\x7b' :: rest =>
        match rest.dropWhile dialect.isBlank with
        | '\x7d' :: rest => (found, .ok rest)
        | rest => streamFields dialect target fuel path found rest
      | _ => (found, (readValue dialect (fuel + 1) text).map (·.2))

def streamItems (dialect : Dialect) (target : String) (fuel : Nat) (path : Option String)
    (found : List Json) (text : List Char) : Streamed :=
  match fuel with
  | 0 => (found, malformed)
  | fuel + 1 =>
    match streamValue dialect target fuel path found text with
    | (found, .error refusal) => (found, .error refusal)
    | (found, .ok rest) =>
      match rest.dropWhile dialect.isBlank with
      | ',' :: rest =>
        streamItems dialect target fuel path found (rest.dropWhile dialect.isBlank)
      | ']' :: rest => (found, .ok rest)
      | _ => (found, malformed)

def streamFields (dialect : Dialect) (target : String) (fuel : Nat) (path : Option String)
    (found : List Json) (text : List Char) : Streamed :=
  match fuel with
  | 0 => (found, malformed)
  | fuel + 1 =>
    match readKey dialect text with
    | .error refusal => (found, .error refusal)
    | .ok (key, rest) =>
      match streamValue dialect target fuel (extendPath path key) found rest with
      | (found, .error refusal) => (found, .error refusal)
      | (found, .ok rest) =>
        match rest.dropWhile dialect.isBlank with
        | ',' :: rest =>
          streamFields dialect target fuel path found (rest.dropWhile dialect.isBlank)
        | '\x7d' :: rest => (found, .ok rest)
        | _ => (found, malformed)

end

/-- The values at `target`, and the refusal that ended the text early, if one did. -/
def stream (dialect : Dialect) (target : String) (text : List Char) :
    List Json × Option Number.Refusal :=
  let text := text.dropWhile dialect.isBlank
  match streamValue dialect target (fuelFor text) none [] text with
  | (found, .error refusal) => (found.reverse, some refusal)
  | (found, .ok rest) =>
    (found.reverse, if rest.all dialect.isBlank then none else some .malformed)

end CallTimeline.Json
