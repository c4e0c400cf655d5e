namespace CallTimeline.Kernel

def cloneMarks : List String :=
  [".isra", ".constprop", ".part", ".cold", ".llvm", ".lto_priv"]

/-- Whether a text is the suffix of a clone up to its end. The end is that of the text or a line
feed that ends it. -/
def isCloneSuffix (text : List Char) : Bool :=
  cloneMarks.any fun mark =>
    match mark.toList.isPrefixOf? text with
    | some rest => rest.dropWhile (· != '\n') == [] || rest.dropWhile (· != '\n') == ['\n']
    | none => false

/-- A text cut before the first suffix of a clone; a line feed at its end stays. -/
def cutClone : List Char → List Char
  | [] => []
  | c :: rest =>
    if isCloneSuffix (c :: rest) then (c :: rest).dropWhile (· != '\n') else c :: cutClone rest

def baseSymbol (function : String) : String :=
  String.ofList (cutClone function.toList)

end CallTimeline.Kernel
