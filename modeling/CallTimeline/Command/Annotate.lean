import CallTimeline.Command.Build
import CallTimeline.Workflow.Annotate

/-!
# The command that annotates a timeline

It looks up the functions of a timeline document in a source tree and writes what it finds. The
exit code is 0 after that, 1 after a fault and 2 for arguments that the command does not take.
-/

namespace CallTimeline.Command

open Source

structure AnnotateOptions where
  operands : List (Option String) := []
  outputDirectory : String := ""
  searchDirs : List String := []
  /-- Seconds; zero for no limit. -/
  timeout : Float := 10.0
  workers : Option Int := none

namespace AnnotateOptions

def help : Flag := { spellings := ["-h", "--help"], takesValue := false }
def outputFlag : Flag := { spellings := ["-o", "--output-dir"], takesValue := true }
def searchFlag : Flag := { spellings := ["--search-dir"], takesValue := true }
def timeoutFlag : Flag := { spellings := ["--timeout"], takesValue := true }
def workersFlag : Flag := { spellings := ["--workers"], takesValue := true }

def flags : List Flag := [help, outputFlag, searchFlag, timeoutFlag, workersFlag]

def act (options : AnnotateOptions) : Taken → Except Refusal AnnotateOptions
  | .operand value => .ok { options with operands := options.operands ++ [value] }
  | .option flag value =>
    if flag = outputFlag then .ok { options with outputDirectory := value }
    else if flag = searchFlag then .ok { options with searchDirs := options.searchDirs ++ [value] }
    else if flag = timeoutFlag then
      match Number.real? value.toList with
      | some timeout => .ok { options with timeout }
      | none => .error .usage
    else if flag = workersFlag then
      match Number.integer value.toList with
      | .ok workers => .ok { options with workers := some workers }
      | .error _ => .error .usage
    else .error .help

def ofArguments (arguments : List String) : Except Refusal AnnotateOptions :=
  parse flags 2 {} act arguments

def timelineFile (options : AnnotateOptions) : String :=
  (options.operands[0]?.join).getD ""

def sourceRoot? (options : AnnotateOptions) : Option String :=
  options.operands[1]?.join

def settings (options : AnnotateOptions) : Settings :=
  let base : Settings := {
    timeout := if options.timeout == 0.0 then none else some (.real options.timeout)
    workers := options.workers }
  if options.searchDirs.isEmpty then base else { base with searchDirs := options.searchDirs }

def unresolvedList (summary : Json) : Except Fault (List String) := do
  (← (← summary.field "unresolved").parts).zipIdx.mapM fun (name, i) =>
    match name with
    | .str name => .ok name
    | value => .error (.mismatch
        ("sequence item " ++ toString i ++ ": expected str instance, " ++ value.kind ++ " found"))

def run (options : AnnotateOptions) (sourceRoot outputDirectory : String) : Work Nat := do
  let settings := options.settings
  let timeout := (Settings.numeral settings.timeout).display
  Work.print "\nConfiguration:"
  Work.print ("  Timeline: " ++ options.timelineFile)
  Work.print ("  Source root: " ++ sourceRoot)
  Work.print ("  Search dirs: " ++ ", ".intercalate settings.searchDirs)
  Work.print ("  Timeout: " ++ timeout ++ "s")
  Work.print ("  Output dir: " ++ outputDirectory ++ "\n")
  let annotator : Workflow.Annotator :=
    { sourceRoot, settings, outputDirectory }
  let annotated ← annotator.file options.timelineFile
  let locations := (← get).locations
  Work.print ("\n✓ Annotation complete! " ++ toString (locations.count .resolved) ++ " of " ++
    toString locations.length ++ " functions resolved")
  let unresolved ← unresolvedList annotated.summary
  unless unresolved.isEmpty do
    Work.print ("  Unresolved: " ++ ", ".intercalate unresolved)
  return 0

end AnnotateOptions

def annotate (arguments : List String) : Work Nat := do
  match AnnotateOptions.ofArguments arguments with
  | .error refusal => return refusal.exitCode
  | .ok options =>
    match options.sourceRoot? with
    | none =>
      -- The handler below does not cover this fault, so it gives no exit code.
      throw (.mismatch "stat: path should be string, bytes, os.PathLike or integer, not list")
    | some sourceRoot =>
      if (← Work.tree).isDirectory sourceRoot then
        let host ← Work.host
        let outputDirectory :=
          if options.outputDirectory.isEmpty then Archive.defaultDirectory host
          else options.outputDirectory
        tryCatch (options.run sourceRoot outputDirectory) fun fault => do
          match fault with
          | .file .missing path => Work.print ("Error: File '" ++ path ++ "' not found.")
          | fault => Work.print ("Error: " ++ fault.message)
          return 1
      else
        Work.print ("Error: Source root '" ++ sourceRoot ++ "' is not a directory.")
        return 1

end CallTimeline.Command
