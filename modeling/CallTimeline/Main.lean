import CallTimeline.Calendar
import CallTimeline.Command.Annotate
import CallTimeline.Command.Build
import CallTimeline.Number.Places

/-!
# The program

`build` and `annotate` run the two commands on the files of the machine. What a command can ask for
is read before it starts, and what it has written is stored when it has ended.

`annotate` is told on standard input which files the source tree has, by one path on each line.
-/

namespace CallTimeline.Program

def numberBehind (word : String) (text : String) : Nat :=
  (((Text.lines text.toList).find? fun line => word.toList.isPrefixOf line).map fun line =>
    digits (line.drop word.length)).getD 0
where
  digits (line : List Char) : Nat :=
    ((String.ofList (line.takeWhile Char.isDigit)).toNat?).getD 0

def now : IO Moment := do
  let started := numberBehind "btime " (← IO.FS.readFile "/proc/stat")
  let running := numberBehind "" (← IO.FS.readFile "/proc/uptime")
  return { seconds := started + running }

/-- What the machine tells about itself. The search is one worker's, and reading the sources is what
takes its time. -/
def host (milliseconds : Nat) : IO Host := do
  let moment ← now
  let release ← IO.FS.readFile "/proc/sys/kernel/osrelease"
  return {
    now := moment.text
    stamp := moment.stamp
    elapsed := Double.hundredths (milliseconds / 10)
    release := String.ofList (Text.trim release.toList)
    processors := 1 }

def loadEntry (tree : FileTree) (path : String) : IO FileTree := do
  if let .ok (.found _) := tree.place true path then return tree
  let added ← match ← (IO.FS.readBinFile path).toBaseIO with
    | .ok bytes => pure (tree.write path bytes.toList)
    | .error (.inappropriateType ..) => pure (tree.makeDirectory path)
    | .error _ => pure (.ok tree)
  return added.toOption.getD tree

def load (tree : FileTree) (path : String) : IO FileTree :=
  let way := PlainPath.ofText (Path.join tree.workingPath path)
  (List.range way.names.length).foldlM (fun tree i =>
    loadEntry tree (Path.normalize { way with names := way.names.take (i + 1) }.text)) tree

def loadAll (paths : List String) : IO FileTree := do
  let directory := toString (← IO.currentDir)
  let tree : FileTree :=
    { root := .dir [], workingDirectory := (PlainPath.ofText directory).names }
  (directory :: paths).foldlM load tree

def save (before after : FileTree) : IO Unit := do
  let old := before.root.files []
  for file in after.root.files [] do
    unless old.contains file do
      IO.FS.createDirAll ("/" ++ "/".intercalate file.1.dropLast)
      IO.FS.writeBinFile ("/" ++ "/".intercalate file.1) (ByteArray.mk file.2.toArray)

def buildPaths (options : Command.BuildOptions) : List String :=
  [options.inputFile, options.outputDirectory, Path.join options.outputDirectory options.name]

def annotatePaths (options : Command.AnnotateOptions) : List String :=
  [options.timelineFile, options.sourceRoot?.getD "", options.outputDirectory]

def run (command : Work Nat) (paths : List String) : IO UInt32 := do
  let started ← IO.monoMsNow
  let tree ← loadAll paths
  let session : Session := { host := ← host ((← IO.monoMsNow) - started), tree }
  let (result, session) := StateT.run (ExceptT.run command) session
  save tree session.tree
  IO.print session.output
  match result with
  | .ok code => return code.toUInt32
  | .error fault =>
    IO.eprintln fault.message
    return 1

def build (arguments : List String) : IO UInt32 := do
  match Command.BuildOptions.ofArguments (← host 0) arguments with
  | .ok options => run (Command.build arguments) (buildPaths options)
  | .error refusal => return refusal.exitCode.toUInt32

def annotate (arguments : List String) : IO UInt32 := do
  match Command.AnnotateOptions.ofArguments arguments with
  | .ok options =>
    let sources := (← (← IO.getStdin).lines).toList
    run (Command.annotate arguments) (annotatePaths options ++ sources)
  | .error refusal => return refusal.exitCode.toUInt32

end CallTimeline.Program

def main (arguments : List String) : IO UInt32 := do
  match arguments with
  | "build" :: arguments => CallTimeline.Program.build arguments
  | "annotate" :: arguments => CallTimeline.Program.annotate arguments
  | _ =>
    IO.eprintln "usage: (build | annotate) ARGUMENT..."
    return 2
