import CallTimeline.Json.Name
import CallTimeline.Source.Body

namespace CallTimeline.Source

structure Settings where
  searchDirs : List String := ["net", "include/net", "include/linux"]
  extensions : List String := [".c", ".h"]
  /-- The lines behind the first one that are read to tell a definition. -/
  contextLines : Option Int := some 3
  /-- The seconds after which a search is given up. -/
  timeout : Option Json.Numeral := some (.real 10.0)
  workers : Option Int := none
  lookahead : Option Int := some 5
  fallbackLines : Option Int := some 30
  maxBodyLines : Option Int := some 200

namespace Settings

def optionalInt (value : Option Int) : Json :=
  match value with
  | some value => .int value
  | none => .null

def numeral : Option Json.Numeral → Json
  | some (.int value) => .int value
  | some (.real value) => .real value
  | none => .null

def toJson (settings : Settings) : Json :=
  .obj [("search_dirs", .arr (settings.searchDirs.map .str)),
    ("extensions", .arr (settings.extensions.map .str)),
    ("context_lines", optionalInt settings.contextLines),
    ("timeout_seconds", numeral settings.timeout),
    ("num_workers", optionalInt settings.workers),
    ("body_lookahead", optionalInt settings.lookahead),
    ("fallback_lines", optionalInt settings.fallbackLines),
    ("max_body_lines", optionalInt settings.maxBodyLines)]

/-- Whether the time for a search is over before it begins. Any positive time is enough. -/
def isExpired (settings : Settings) : Except Fault Bool :=
  match settings.timeout with
  | none => .ok false
  | some (.int seconds) => do
    let seconds ← Json.realOfInt seconds
    return seconds ≤ 0.0
  | some (.real seconds) => .ok (seconds ≤ 0.0)

def missingNumber : Fault :=
  .mismatch "unsupported operand type(s) for +: 'int' and 'NoneType'"

def body (settings : Settings) (lines : List (List Char)) (start : Int) : Except Fault Body :=
  if start < 1 ∨ lines.length < start then .ok (Body.extract {} lines start)
  else
    match settings.lookahead with
    | none => .error missingNumber
    | some lookahead =>
      let body := Body.extract
        { lookahead
          fallback := settings.fallbackLines.getD 0
          maxLines := settings.maxBodyLines.getD 0 } lines start
      -- A limit that is missing is a fault only where it would have ended the body.
      if body.status = .fallback ∧ settings.fallbackLines = none then .error missingNumber
      else if body.status = .overrun ∧ settings.maxBodyLines = none ∧
          start - 1 + body.lineCount < lines.length then
        .error (.mismatch "'>=' not supported between instances of 'int' and 'NoneType'")
      else .ok body

end Settings

end CallTimeline.Source
