import CallTimeline.Archive
import CallTimeline.Command.Arguments
import CallTimeline.Workflow.Build

namespace CallTimeline.Command

structure BuildOptions where
  inputFile : String := ""
  outputDirectory : String := "."
  name : String := Archive.timelineFile
  kernelRelease : String
  indentWidth : Int := 2

namespace BuildOptions

def help : Flag := { spellings := ["-h", "--help"], takesValue := false }
def outputFlag : Flag := { spellings := ["-o", "--output-dir"], takesValue := true }
def nameFlag : Flag := { spellings := ["--name"], takesValue := true }
def releaseFlag : Flag := { spellings := ["--kernel-version"], takesValue := true }
def widthFlag : Flag := { spellings := ["--indent-width"], takesValue := true }

def flags : List Flag := [help, outputFlag, nameFlag, releaseFlag, widthFlag]

def act (options : BuildOptions) : Taken → Except Refusal BuildOptions
  | .operand value => .ok { options with inputFile := value.getD "" }
  | .option flag value =>
    if flag = outputFlag then .ok { options with outputDirectory := value }
    else if flag = nameFlag then .ok { options with name := value }
    else if flag = releaseFlag then .ok { options with kernelRelease := value }
    else if flag = widthFlag then
      match Number.integer value.toList with
      | .ok indentWidth => .ok { options with indentWidth }
      | .error _ => .error .usage
    else .error .help

def ofArguments (host : Host) (arguments : List String) : Except Refusal BuildOptions :=
  parse flags 1 { kernelRelease := host.release } act arguments

end BuildOptions

def Refusal.exitCode : Refusal → Nat
  | .usage => 2
  | .help => 0

def BuildOptions.run (options : BuildOptions) (settings : Trace.Settings) : Work Nat := do
  Work.print "\nConfiguration:"
  Work.print ("  Input file: " ++ options.inputFile)
  Work.print ("  Kernel version: " ++ options.kernelRelease)
  Work.print ("  Indent width: " ++ toString options.indentWidth ++ "\n")
  let timeline ← Workflow.timelineOfFile settings options.inputFile
  Workflow.printReport timeline
  if timeline.hasData then
    let document := timeline.toJson (← Work.host).now [
      ("kernel_version", .str options.kernelRelease),
      ("source", .str (Path.lastSegment options.inputFile))]
    let archive ← Archive.openAt options.outputDirectory
    let stored ← archive.writeTimeline options.name document
    Work.print ("\n✓ Timeline written to " ++ stored.path ++ " (" ++
      toString timeline.entries.length ++ " entries)")
    return 0
  else
    Work.print "\nNo data produced: the trace contained no function_graph entries."
    return 3

def build (arguments : List String) : Work Nat := do
  match BuildOptions.ofArguments (← Work.host) arguments with
  | .error refusal => return refusal.exitCode
  | .ok options =>
    -- The handler below does not cover the settings: a width below one gives no exit code.
    let settings ← Trace.Settings.make options.indentWidth 1000 "net/core"
    tryCatch (options.run settings) fun fault => do
      match fault with
      | .file .missing _ => Work.print ("Error: File '" ++ options.inputFile ++ "' not found.")
      | fault => Work.print ("Error: " ++ fault.message)
      return 1

end CallTimeline.Command
