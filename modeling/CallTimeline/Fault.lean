import CallTimeline.Text.Quoted
import CallTimeline.Number.Literal

namespace CallTimeline

inductive FileTrouble where
  | missing
  | exists
  | notDirectory
  | isDirectory
  | nameTooLong
  | tooManyLinks
deriving Repr, DecidableEq

namespace FileTrouble

def number : FileTrouble → Nat
  | missing => 2
  | «exists» => 17
  | notDirectory => 20
  | isDirectory => 21
  | nameTooLong => 36
  | tooManyLinks => 40

def text : FileTrouble → String
  | missing => "No such file or directory"
  | «exists» => "File exists"
  | notDirectory => "Not a directory"
  | isDirectory => "Is a directory"
  | nameTooLong => "File name too long"
  | tooManyLinks => "Too many levels of symbolic links"

end FileTrouble

inductive Fault where
  | notInteger (text : String)
  | tooManyDigits (count : Nat)
  | unwritableInteger
  | notReal (text : String)
  | nanAsInteger
  | infinityAsInteger
  | integerAsReal
  | unknownWord (shown kind : String)
  | tooManyParts
  | tooFewParts (expected count : Nat)
  | rowLength (row count : Nat)
  | indentWidth (width : Int)
  | missingField (key : String)
  | blankName
  | noEntryList
  | notDocument (path : String)
  | notDatabase (path : String)
  | invalidRecord (path : String) (cause : Fault)
  | notJson
  /-- A value of a kind that does not fit its place. -/
  | mismatch (text : String)
  /-- A value whose kind lacks the operation asked of it. -/
  | noOperation (kind operation : String)
  | file (trouble : FileTrouble) (path : String)
  | nulInPath
  /-- A time that is too long to be waited for. -/
  | endlessWait
deriving Repr, DecidableEq

namespace Fault

def shownLiteral (text : String) : String :=
  String.ofList ((Text.quoted text).toList.take 200)

def message : Fault → String
  | notInteger text => "invalid literal for int() with base 10: " ++ shownLiteral text
  | tooManyDigits count =>
    "Exceeds the limit (" ++ toString Number.digitLimit ++
      " digits) for integer string conversion: value has " ++ toString count ++
      " digits; use sys.set_int_max_str_digits() to increase the limit"
  | unwritableInteger =>
    "Exceeds the limit (" ++ toString Number.digitLimit ++
      " digits) for integer string conversion; use sys.set_int_max_str_digits() to increase the limit"
  | notReal text => "could not convert string to float: " ++ Text.quoted text
  | nanAsInteger => "cannot convert float NaN to integer"
  | infinityAsInteger => "cannot convert float infinity to integer"
  | integerAsReal => "int too large to convert to float"
  | unknownWord shown kind => shown ++ " is not a valid " ++ kind
  | tooManyParts => "too many values to unpack (expected 2)"
  | tooFewParts expected count =>
    "not enough values to unpack (expected " ++ toString expected ++ ", got " ++ toString count ++ ")"
  | rowLength row count =>
    "dictionary update sequence element #" ++ toString row ++ " has length " ++ toString count ++
      "; 2 is required"
  | indentWidth width => "indent_width must be positive, got " ++ toString width
  | missingField key => Text.quoted key
  | blankName => "list index out of range"
  | noEntryList => "Timeline document must contain a 'timeline' list"
  | notDocument path => path ++ " is not a timeline document"
  | notDatabase path => path ++ " is not a function database"
  | invalidRecord path cause => path ++ " has an invalid record: " ++ cause.message
  | notJson => "parse error"
  | mismatch text => text
  | noOperation kind operation => "'" ++ kind ++ "' object has no attribute '" ++ operation ++ "'"
  | file trouble path =>
    "[Errno " ++ toString trouble.number ++ "] " ++ trouble.text ++ ": " ++ Text.quoted path
  | nulInPath => "embedded null byte"
  | endlessWait => "timestamp out of range for platform time_t"

end Fault

end CallTimeline
