import CallTimeline.Fault
import CallTimeline.Text.Digit

/-!
# Command-line arguments

Options may be written as `--name value`, `--name=value`, by the beginning of a name that fits only
one option, and with one letter as `-n value` or `-nvalue`. What looks like no option is an operand;
behind `--` everything is. A command says which options and operands it takes and what becomes of
their values.
-/

namespace CallTimeline.Command

structure Flag where
  spellings : List String
  takesValue : Bool
deriving DecidableEq

inductive Refusal where
  | usage
  | help
deriving Repr, DecidableEq

inductive Written where
  | nothing
  | value (text : String)
  /-- What stands behind the letter of a one-letter option: its value, or further letters. -/
  | letters (text : List Char)

inductive Shape where
  | operand
  | separator
  | option (flag : Flag) (written : Written)
  | unknown

def isHyphen (c : Char) : Bool := c == '-'

def isNegativeNumber (text : List Char) : Bool :=
  match text with
  | '-' :: rest =>
    let rest := if rest.getLast? == some '\n' then rest.dropLast else rest
    match rest.span Text.isDigit with
    | (digits, []) => !digits.isEmpty
    | (_, '.' :: fraction) => !fraction.isEmpty && fraction.all Text.isDigit
    | _ => false
  | _ => false

def splitEquals (argument : String) : String × Written :=
  match argument.toList.span (· != '=') with
  | (name, '=' :: value) => (String.ofList name, .value (String.ofList value))
  | _ => (argument, .nothing)

def spellings (flags : List Flag) : List (String × Flag) :=
  flags.flatMap fun flag => flag.spellings.map fun spelling => (spelling, flag)

def abbreviated (flags : List Flag) (argument : String) : List Shape :=
  match argument.toList with
  | '-' :: '-' :: _ =>
    let (name, written) := splitEquals argument
    (spellings flags).filterMap fun (spelling, flag) =>
      if name.toList.isPrefixOf spelling.toList then some (.option flag written) else none
  | chars =>
    (spellings flags).filterMap fun (spelling, flag) =>
      if spelling.toList == chars.take 2 then some (.option flag (.letters (chars.drop 2)))
      else if chars.isPrefixOf spelling.toList then some (.option flag .nothing)
      else none

def named? (flags : List Flag) (argument : String) : Option Shape :=
  match splitEquals argument with
  | (name, .value text) =>
    ((spellings flags).lookup name).map fun flag => .option flag (.value text)
  | _ => none

def shapeOf (flags : List Flag) (argument : String) : Except Refusal Shape :=
  if !argument.toList.head?.any isHyphen then .ok .operand
  else
    match (spellings flags).lookup argument with
    | some flag => .ok (.option flag .nothing)
    | none =>
      if argument == "-" then .ok .operand
      else
        match named? flags argument with
        | some shape => .ok shape
        | none =>
          match abbreviated flags argument with
          | [shape] => .ok shape
          | _ :: _ :: _ => .error .usage
          | [] =>
            if isNegativeNumber argument.toList || argument.contains ' ' then .ok .operand
            else .ok .unknown

def classify (flags : List Flag) : List String → Except Refusal (List (String × Shape))
  | [] => .ok []
  | "--" :: rest => .ok (("--", .separator) :: rest.map fun argument => (argument, .operand))
  | argument :: rest => do
    let shape ← shapeOf flags argument
    return (argument, shape) :: (← classify flags rest)

inductive Taken where
  /-- An operand; it has no value if it is written as a separator. -/
  | operand (value : Option String)
  | option (flag : Flag) (value : String)

/-- The first group of arguments that can be one operand: an operand with a separator before or
behind it. Gives the operand's texts and what is left. -/
def operandGroup? (arguments : List (String × Shape)) :
    Option (List String × List (String × Shape)) :=
  let afterSeparator (arguments : List (String × Shape)) :=
    match arguments with
    | (text, .separator) :: rest => ([text], rest)
    | rest => ([], rest)
  let (before, rest) := afterSeparator arguments
  match rest with
  | (text, .operand) :: rest =>
    let (behind, rest) := afterSeparator rest
    some (before ++ text :: behind, rest)
  | _ => none

def operandGroups (count : Nat) (arguments : List (String × Shape)) :
    List (List String) × List (String × Shape) :=
  match count with
  | 0 => ([], arguments)
  | count + 1 =>
    match operandGroup? arguments with
    | none => ([], arguments)
    | some (group, rest) =>
      let (groups, rest) := operandGroups count rest
      (group :: groups, rest)

def groupValue? (group : List String) : Option String :=
  (group.erase "--").head?

/-- What an argument with options settles: the options in order, the one whose value has to follow,
and whether the argument holds a letter that is no option. -/
structure Settled where
  taken : List Taken
  pending : Option Flag := none
  extra : Bool := false

/-- One-letter options that are written together: those without a value come first, and the last
may have one, behind an equals sign or without. -/
def cluster (flags : List Flag) (taken : List Taken) (flag : Flag) :
    List Char → Except Refusal Settled
  | [] => .ok { taken, pending := some flag }
  | letter :: rest =>
    if flag.takesValue then
      .ok { taken := taken ++ [.option flag (String.ofList (letter :: rest))] }
    else if isHyphen letter then .error .usage
    else
      let taken := taken ++ [.option flag ""]
      match (spellings flags).lookup (String.ofList ['-', letter]), rest with
      | none, _ => .ok { taken, extra := true }
      | some other, '=' :: value =>
        if other.takesValue then .ok { taken := taken ++ [.option other (String.ofList value)] }
        else .error .usage
      | some other, rest => cluster flags taken other rest

def settle (flags : List Flag) (flag : Flag) : Written → Except Refusal Settled
  | .nothing => .ok { taken := [], pending := some flag }
  | .value text =>
    if flag.takesValue then .ok { taken := [.option flag text] } else .error .usage
  | .letters letters => cluster flags [] flag letters

def takeValue (pending : Option Flag) (rest : List (String × Shape)) :
    Except Refusal (List Taken × List (String × Shape)) :=
  match pending with
  | none => .ok ([], rest)
  | some flag =>
    if flag.takesValue then
      match rest with
      | (text, .operand) :: rest => .ok ([.option flag text], rest)
      | _ => .error .usage
    else .ok ([.option flag ""], rest)

structure Progress (σ : Type) where
  state : σ
  wanted : Nat
  extra : Bool := false

/-- Goes through the arguments. Every round takes one, so their number is enough fuel. -/
def takeAll {σ : Type} (flags : List Flag) (act : σ → Taken → Except Refusal σ) (fuel : Nat)
    (progress : Progress σ) (arguments : List (String × Shape)) : Except Refusal (Progress σ) :=
  match fuel, arguments with
  | 0, _ | _, [] => .ok progress
  | fuel + 1, (_, .option flag written) :: rest => do
    let settled ← settle flags flag written
    let (taken, rest) ← takeValue settled.pending rest
    -- What is taken is acted on at once, so the first refusal counts.
    let state ← (settled.taken ++ taken).foldlM act progress.state
    takeAll flags act fuel { progress with state, extra := progress.extra || settled.extra } rest
  | fuel + 1, (_, .unknown) :: rest =>
    takeAll flags act fuel { progress with extra := true } rest
  | fuel + 1, arguments =>
    match operandGroups progress.wanted arguments with
    -- No operand is wanted any more, or a separator stands here without one.
    | ([], _) => takeAll flags act fuel { progress with extra := true } (arguments.drop 1)
    | (groups, rest) => do
      let state ← groups.foldlM (fun state group => act state (.operand (groupValue? group)))
        progress.state
      takeAll flags act fuel { progress with state, wanted := progress.wanted - groups.length } rest

def parse {σ : Type} (flags : List Flag) (operands : Nat) (initial : σ)
    (act : σ → Taken → Except Refusal σ) (arguments : List String) : Except Refusal σ := do
  let shapes ← classify flags arguments
  let progress ← takeAll flags act (arguments.length + 1)
    { state := initial, wanted := operands } shapes
  if progress.wanted = 0 ∧ !progress.extra then return progress.state else throw .usage

end CallTimeline.Command
