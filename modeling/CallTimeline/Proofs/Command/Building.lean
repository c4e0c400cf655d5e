import CallTimeline.Command.Build
import CallTimeline.Proofs.Archive.Documents
import CallTimeline.Proofs.FileTree.Making
import CallTimeline.Proofs.FileTree.WorkingDirectory
import CallTimeline.Proofs.Workflow.TraceFile

/-!
# What building a timeline leaves

What a run comes to and which files it leaves can be told without what it prints (`leaves_run`). A run
whose faults are caught ends in any case (`exists_ends`), and its exit code tells what was written: the
document of the trace or nothing (`build_exit_code`).
-/

namespace CallTimeline

namespace Archive

/-- A document is written under a name in an archive: the directory is made, and what the path leads
to there is a place for a file. Read by its path, it is the document; all other files stay what they
are. -/
structure Writes (archive : Archive) (name : String) (document : Json) (place : List String)
    (before after : FileTree) : Prop where
  stores : ∃ made, archive.made before = (made, .ok ()) ∧
    made.Takes (archive.directory.child name).text place ∧
    after = made.withFile place (Text.Utf8.encode document.indented)
  read : after.read (archive.directory.child name).text = .ok (Text.Utf8.encode document.indented)
  elsewhere : ∀ other ≠ place, ∀ bytes, after.HasFile other bytes ↔ before.HasFile other bytes

variable {archive : Archive} {name : String} {document : Json} {tree made : FileTree}

theorem sameFiles_made {outcome : Except Fault Unit} (makes : archive.made tree = (made, outcome)) :
    FileTree.SameFiles tree made := by
  have same := @FileTree.sameFiles_makeDirectories tree (archive.directory.names.length + 1)
    archive.directory
  rwa [← Archive.made, makes] at same

theorem writes_of_takes {place : List String} (makes : archive.made tree = (made, .ok ()))
    (takes : made.Takes (archive.directory.child name).text place) :
    archive.Writes name document place tree
      (made.withFile place (Text.Utf8.encode document.indented)) where
  stores := ⟨made, makes, takes, rfl⟩
  read := FileTree.read_of_write (takes.write _)
  elsewhere other ne bytes :=
    ((takes.fileWritten _).file_iff ne).trans (sameFiles_made makes other bytes)

end Archive

namespace Command

open Archive

def complaint (named : String → String) : Fault → String
  | .file .missing path => "Error: File '" ++ named path ++ "' not found."
  | fault => "Error: " ++ fault.message

/-- A run fails, and what failed is printed at the end. -/
def Fails (named : String → String) (run : Work Nat) (session after : Session) : Prop :=
  ∃ fault between, run.result session = (.error fault, between) ∧
    after = { between with output := between.output ++ complaint named fault ++ "\n" }

/-- A run whose faults are caught ends with its exit code, or fails and ends with 1. -/
def Ends (named : String → String) (run : Work Nat) (session : Session) (code : Nat)
    (after : Session) : Prop :=
  run.result session = (.ok code, after) ∨ code = 1 ∧ Fails named run session after

theorem Ends.exits {named : String → String} {run : Work Nat} {session after : Session} {code : Nat}
    {codes : List Nat} (ends : Ends named run session code after) (gives : run.Gives (· ∈ codes))
    (others : 1 ∉ codes) :
    code ∈ 1 :: codes ∧ (code = 1 ↔ Fails named run session after) := by
  obtain runs | ⟨rfl, fails⟩ := ends
  · refine ⟨List.mem_cons_of_mem 1 (gives runs), fun one => absurd (one ▸ gives runs) others, ?_⟩
    rintro ⟨fault, between, fails, -⟩
    rw [runs] at fails
    cases fails
  · exact ⟨List.mem_cons_self, iff_of_true rfl fails⟩

theorem exists_ends {named : String → String} {run : Work Nat} {handler : Fault → Work Nat}
    (handles : ∀ fault session, (handler fault).result session =
      (.ok 1, { session with output := session.output ++ complaint named fault ++ "\n" }))
    (session : Session) :
    ∃ code after, (tryCatch run handler).result session = (.ok code, after) ∧
      Ends named run session code after := by
  rw [Work.result_tryCatch]
  cases runs : run.result session with
  | mk outcome between =>
      cases outcome with
      | ok code => exact ⟨code, between, rfl, .inl runs⟩
      | error fault => exact ⟨1, _, handles fault between, .inr ⟨rfl, fault, between, runs, rfl⟩⟩

namespace BuildOptions

variable {options : BuildOptions} {settings : Trace.Settings} {session : Session}

def document (options : BuildOptions) (host : Host) (timeline : Timeline) : Json :=
  timeline.toJson host.now [
    ("kernel_version", .str options.kernelRelease),
    ("source", .str (Path.lastSegment options.inputFile))]

def written (archive : Archive) (name : String) (document : Json) (tree : FileTree) :
    Except Fault Nat × FileTree :=
  match archive.made tree with
  | (made, .error fault) => (.error fault, made)
  | (made, .ok ()) =>
    match made.write (archive.directory.child name).text
      (Text.Utf8.encode document.indented) with
    | .error fault => (.error fault, made)
    | .ok after => (.ok 0, after)

theorem leaves_written (directory name : String) (document : Json) (session : Session)
    (line : Stored → String) :
    (do
        let archive ← openAt directory
        let stored ← archive.writeDocument name document
        Work.print (line stored)
        return 0 : Work Nat).Leaves session
      (written (ofDirectory session.host directory) name document session.tree).1
      (written (ofDirectory session.host directory) name document session.tree).2 := by
  rw [written]
  cases makes : (ofDirectory session.host directory).made session.tree with
  | mk made outcome =>
      cases outcome with
      | error fault => exact (leaves_openAt_error makes).bind_error _
      | ok =>
          refine (leaves_openAt makes).bind ?_
          dsimp only
          cases stores : made.write ((ofDirectory session.host directory).directory.child name).text
              (Text.Utf8.encode document.indented) with
          | error fault =>
              exact Work.Leaves.bind_error
                (@leaves_writeDocument_error { session with tree := made } _ _ _ _ stores) _
          | ok after =>
              exact (@leaves_writeDocument { session with tree := made } _ _ _ _ stores).bind
                ((Work.prints_print _).leaves_bind ((Work.prints_pure _).leaves _))

theorem written_cases (archive : Archive) (name : String) (document : Json) (tree : FileTree) :
    (∃ place after, archive.Writes name document place tree after ∧
      written archive name document tree = (.ok 0, after)) ∨
    (∀ place after, ¬ archive.Writes name document place tree after) ∧
      ∃ fault after, written archive name document tree = (.error fault, after) ∧
        FileTree.SameFiles tree after := by
  rw [written]
  cases makes : archive.made tree with
  | mk made outcome =>
      have same := sameFiles_made makes
      cases outcome with
      | error fault =>
          refine .inr ⟨fun place after writes => ?_, fault, made, rfl, same⟩
          obtain ⟨made', makes', -⟩ := writes.stores
          rw [makes] at makes'
          cases makes'
      | ok =>
          dsimp only
          cases stores : made.write (archive.directory.child name).text
              (Text.Utf8.encode document.indented) with
          | error fault =>
              refine .inr ⟨fun place after writes => ?_, fault, made, rfl, same⟩
              obtain ⟨made', makes', takes, -⟩ := writes.stores
              rw [makes] at makes'
              cases makes'
              rw [takes.write] at stores
              cases stores
          | ok after =>
              obtain ⟨place, takes, rfl⟩ := FileTree.write_eq_ok.mp stores
              exact .inl ⟨place, _, writes_of_takes makes takes, rfl⟩

def built (options : BuildOptions) (settings : Trace.Settings) (host : Host) (tree : FileTree) :
    Except Fault Nat × FileTree :=
  match Workflow.fileTimeline settings tree options.inputFile with
  | .error fault => (.error fault, tree)
  | .ok timeline =>
    if timeline.hasData then
      written (ofDirectory host options.outputDirectory) options.name
        (options.document host timeline) tree
    else (.ok 3, tree)

theorem leaves_run (options : BuildOptions) (settings : Trace.Settings) (session : Session) :
    (options.run settings).Leaves session (options.built settings session.host session.tree).1
      (options.built settings session.host session.tree).2 := by
  refine (Work.prints_print _).leaves_bind ?_
  refine (Work.prints_print _).leaves_bind ?_
  refine (Work.prints_print _).leaves_bind ?_
  refine (Work.prints_print _).leaves_bind ?_
  have reads := Workflow.leaves_timelineOfFile settings options.inputFile session
  rw [built]
  cases file : Workflow.fileTimeline settings session.tree options.inputFile with
  | error fault =>
      rw [file] at reads
      exact reads.bind_error _
  | ok timeline =>
      rw [file] at reads
      refine reads.bind ((Workflow.prints_printReport timeline).leaves_bind ?_)
      by_cases data : timeline.hasData = true
      · simp only [data, if_true]
        refine Work.leaves_host_bind ?_
        simp only [writeTimeline_toJson]
        exact leaves_written _ options.name (options.document session.host timeline) _ _
      · simp only [data]
        exact (Work.prints_print _).leaves_bind ((Work.prints_pure _).leaves _)

theorem built_of_ends {named : String → String} {code : Nat} {after : Session}
    (ends : Ends named (options.run settings) session code after) :
    after.tree = (options.built settings session.host session.tree).2 ∧
      ((options.built settings session.host session.tree).1 = .ok code ∨
        code = 1 ∧ ∃ fault, (options.built settings session.host session.tree).1 = .error fault) := by
  obtain ⟨output, runs⟩ := (options.leaves_run settings session).result
  obtain ends | ⟨one, fault, between, ends, rfl⟩ := ends
  · obtain ⟨known, rfl⟩ := Prod.ext_iff.mp (runs.symm.trans ends)
    exact ⟨rfl, .inl known⟩
  · obtain ⟨known, rfl⟩ := Prod.ext_iff.mp (runs.symm.trans ends)
    exact ⟨rfl, .inr ⟨one, fault, known⟩⟩

theorem exit_of_ends {named : String → String} {code : Nat} {after : Session}
    (ends : Ends named (options.run settings) session code after) :
    (code = 3 ↔ ∃ timeline,
      Workflow.fileTimeline settings session.tree options.inputFile = .ok timeline ∧
        timeline.hasData = false) ∧
    (code = 3 → after.tree = session.tree) ∧
    (code = 0 ↔ ∃ timeline,
      Workflow.fileTimeline settings session.tree options.inputFile = .ok timeline ∧
        timeline.hasData = true ∧
        ∃ place, (ofDirectory session.host options.outputDirectory).Writes options.name
          (options.document session.host timeline) place session.tree after.tree) ∧
    (code ≠ 3 → code ≠ 0 → code = 1 ∧ FileTree.SameFiles session.tree after.tree ∧
      ¬ ∃ timeline,
        Workflow.fileTimeline settings session.tree options.inputFile = .ok timeline ∧
          ∃ place stored, (ofDirectory session.host options.outputDirectory).Writes options.name
            (options.document session.host timeline) place session.tree stored) := by
  -- What the code tells is read off the file: it has no timeline, one without data, or one to
  -- write.
  obtain ⟨tree, known⟩ := built_of_ends ends
  rw [built] at tree known
  generalize Workflow.fileTimeline settings session.tree options.inputFile = file at tree known ⊢
  cases file with
  | error fault =>
      obtain ⟨⟨⟩⟩ | ⟨rfl, -⟩ := known
      simp [tree, FileTree.SameFiles.refl]
  | ok timeline =>
      by_cases data : timeline.hasData = true
      case neg =>
        simp only [if_neg data] at tree known
        obtain ⟨⟨⟩⟩ | ⟨-, fault, ⟨⟩⟩ := known
        simp [data, tree]
      case pos =>
        simp only [if_pos data] at tree known
        obtain ⟨place, stored, writes, write⟩ | ⟨none, fault, stored, write, same⟩ :=
          written_cases (ofDirectory session.host options.outputDirectory) options.name
            (options.document session.host timeline) session.tree
        · rw [write] at tree known
          obtain ⟨⟨⟩⟩ | ⟨-, fault, ⟨⟩⟩ := known
          have found : ∃ place, (ofDirectory session.host options.outputDirectory).Writes
              options.name (options.document session.host timeline) place session.tree
              after.tree := ⟨place, tree ▸ writes⟩
          simp [data, found]
        · rw [write] at tree known
          obtain ⟨⟨⟩⟩ | ⟨rfl, -⟩ := known
          simp [data, none, tree, same]

end BuildOptions

theorem exists_settings {width : Int} (wide : 1 ≤ width) :
    ∃ settings, Trace.Settings.make width 1000 "net/core" = .ok settings :=
  ⟨_, dif_pos (show 0 < width.toNat by omega)⟩

variable {arguments : List String} {options : BuildOptions} {session : Session}

theorem result_build (accepted : BuildOptions.ofArguments session.host arguments = .ok options)
    {settings : Trace.Settings}
    (fits : Trace.Settings.make options.indentWidth 1000 "net/core" = .ok settings) :
    ∃ code after, (build arguments).result session = (.ok code, after) ∧
      Ends (fun _ => options.inputFile) (options.run settings) session code after := by
  rw [build, Work.result_host_bind, accepted]
  dsimp only
  rw [fits, Work.result_lift_bind]
  refine exists_ends (fun fault session => ?_) session
  split
  case h_1 => rfl
  case h_2 other =>
    rw [complaint]
    · rfl
    · exact other

theorem result_build_of_narrow
    (accepted : BuildOptions.ofArguments session.host arguments = .ok options)
    (narrow : options.indentWidth < 1) :
    (build arguments).result session = (.error (.indentWidth options.indentWidth), session) := by
  have refused : Trace.Settings.make options.indentWidth 1000 "net/core" =
      .error (.indentWidth options.indentWidth) := dif_neg (by omega)
  rw [build, Work.result_host_bind, accepted]
  dsimp only
  rw [refused, Work.result_lift_bind]

/-- Building a timeline ends with 3 if the trace can be read and holds no call, and then the files
are left as they are; it ends with 0 if the document of the trace has been written. In all other cases
it ends with 1: there are the same files as before, and the document could not be written. -/
theorem build_exit_code
    (accepted : BuildOptions.ofArguments session.host arguments = .ok options)
    (wide : 1 ≤ options.indentWidth) (directed : options.outputDirectory ≠ "") :
    let archive : Archive := { directory := PlainPath.ofText options.outputDirectory }
    ∃ settings code after,
      Trace.Settings.make options.indentWidth 1000 "net/core" = .ok settings ∧
      (build arguments).result session = (.ok code, after) ∧
      (code = 3 ↔ ∃ bytes replay, session.tree.read options.inputFile = .ok bytes ∧
        Trace.Replay.run settings (Workflow.linesOf bytes) = .ok replay ∧ replay.events = #[]) ∧
      (code = 3 → after.tree = session.tree) ∧
      (code = 0 ↔ ∃ bytes replay, session.tree.read options.inputFile = .ok bytes ∧
        Trace.Replay.run settings (Workflow.linesOf bytes) = .ok replay ∧ replay.events ≠ #[] ∧
        ∃ place, archive.Writes options.name
          (options.document session.host (Timeline.ofReplay settings replay)) place
          session.tree after.tree) ∧
      (code ≠ 3 → code ≠ 0 → code = 1 ∧ FileTree.SameFiles session.tree after.tree ∧
        ¬ ∃ bytes replay, session.tree.read options.inputFile = .ok bytes ∧
          Trace.Replay.run settings (Workflow.linesOf bytes) = .ok replay ∧
          ∃ place stored, archive.Writes options.name
            (options.document session.host (Timeline.ofReplay settings replay)) place
            session.tree stored) := by
  intro archive
  have archive_eq : ofDirectory session.host options.outputDirectory = archive := by
    rw [ofDirectory, if_neg (by simpa using directed)]
  obtain ⟨settings, fits⟩ := exists_settings wide
  obtain ⟨code, after, builds, ends⟩ := result_build accepted fits
  obtain ⟨silent, kept, written, failed⟩ := BuildOptions.exit_of_ends ends
  simp only [Workflow.exists_fileTimeline_iff, archive_eq, ← Bool.not_eq_true,
    Timeline.hasData_ofReplay, not_not] at silent written failed
  exact ⟨settings, code, after, fits, builds, silent, kept, written, failed⟩

def traceSession (bytes : List UInt8) : Session :=
  { emptySession with tree := { root := .dir [("t.txt", .file bytes)], workingDirectory := [] } }

theorem traceSession_read (bytes : List UInt8) :
    (traceSession bytes).tree.read "t.txt" = .ok bytes :=
  FileTree.read_of_lookup rfl ⟨by decide, by decide, by decide, by decide⟩
    (String.contains_char_eq.trans (by decide)) (by decide +kernel) rfl

theorem traceSession_writes (bytes : List UInt8) (document : Json) :
    ∃ place stored, workingArchive.Writes timelineFile document place (traceSession bytes).tree
      stored := by
  have inside : (traceSession bytes).tree.root.at? (traceSession bytes).tree.workingDirectory =
      some (.dir [("t.txt", .file bytes)]) := rfl
  have proper : Path.IsName timelineFile := ⟨by decide, by decide, by decide, by decide⟩
  have path : (workingArchive.directory.child timelineFile).text = timelineFile :=
    proper.text_child
  have here : workingArchive.directory = { anchor := "", names := [] } := by decide +kernel
  have makes : workingArchive.made (traceSession bytes).tree =
      ((traceSession bytes).tree, .ok ()) := by
    rw [made, here]
    exact FileTree.makeDirectories_here inside _
  have takes := FileTree.takes_of_free inside proper (by cbv) (by decide +kernel) rfl
  exact ⟨_, _, writes_of_takes makes (path ▸ takes)⟩

theorem build_exit_code_written :
    let session := traceSession (Text.Utf8.encode "0) 1.333 us |  f();")
    ∃ after replay place, (build ["t.txt"]).result session = (.ok 0, after) ∧
      Trace.Replay.run {} (timedTrace "1.333".toList) = .ok replay ∧
      workingArchive.Writes timelineFile
        ((Timeline.ofReplay {} replay).toJson "" [("kernel_version", .str ""),
          ("source", .str "t.txt")]) place session.tree after.tree := by
  intro session
  have accepted : BuildOptions.ofArguments session.host ["t.txt"] =
      .ok { inputFile := "t.txt", kernelRelease := "" } := by cbv
  have lines : Workflow.linesOf (Text.Utf8.encode "0) 1.333 us |  f();") =
      timedTrace "1.333".toList := by cbv
  have run := @run_of_isOk {} (timedTrace "1.333".toList) (by decide +kernel)
  have calls : ((Trace.Replay.run {} (timedTrace "1.333".toList)).toOption.getD {}).events.size ≠
      0 := by decide +kernel
  have reads := traceSession_read (Text.Utf8.encode "0) 1.333 us |  f();")
  obtain ⟨settings, code, after, fits, builds, silent, -, written, failed⟩ :=
    build_exit_code accepted (by decide) (by decide)
  have settings_eq : Trace.Settings.make 2 1000 "net/core" = .ok {} := by cbv
  obtain rfl : settings = {} := Except.ok.inj (fits.symm.trans settings_eq)
  have notSilent : code ≠ 3 := by
    intro three
    obtain ⟨bytes, replay, file, replays, none⟩ := silent.mp three
    cases reads.symm.trans file
    rw [lines, run] at replays
    cases replays
    exact calls (by rw [none]; rfl)
  have done : code = 0 := by
    by_contra notWritten
    exact (failed notSilent notWritten).2.2
      ⟨_, _, reads, lines ▸ run, traceSession_writes _ _⟩
  subst done
  obtain ⟨bytes, replay, file, replays, -, place, writes⟩ := written.mp rfl
  cases reads.symm.trans file
  exact ⟨after, replay, place, builds, lines ▸ replays, writes⟩

end Command

end CallTimeline
