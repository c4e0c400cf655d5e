import CallTimeline.Archive
import CallTimeline.Proofs.FileTree.Writing
import CallTimeline.Proofs.Session
import CallTimeline.Proofs.Timeline.Document

namespace CallTimeline

open Json

namespace Archive

variable {session : Session} {tree : FileTree}

def ofDirectory (host : Host) (directory : String) : Archive where
  directory := PlainPath.ofText (if directory.isEmpty then defaultDirectory host else directory)

def made (archive : Archive) (tree : FileTree) : FileTree × Except Fault Unit :=
  tree.makeDirectories (archive.directory.names.length + 1) archive.directory

theorem result_openAt (directory : String) (session : Session) :
    (openAt directory).result session =
      (((ofDirectory session.host directory).made session.tree).2.map
          fun _ => ofDirectory session.host directory,
        { session with tree := ((ofDirectory session.host directory).made session.tree).1 }) := by
  rw [openAt, Work.result_host_bind]
  change (Work.makeDirectories (ofDirectory session.host directory).directory >>= fun _ => _).result
    session = _
  rw [Work.result_bind, Work.result_makeDirectories, made]
  cases (session.tree.makeDirectories _ (ofDirectory session.host directory).directory).2 <;> rfl

theorem leaves_openAt {directory : String} {made : FileTree}
    (makes : (ofDirectory session.host directory).made session.tree = (made, .ok ())) :
    (openAt directory).Leaves session (.ok (ofDirectory session.host directory)) made := by
  refine Work.leaves_of_result fun output => ?_
  rw [result_openAt, makes]
  rfl

theorem leaves_openAt_error {directory : String} {made : FileTree} {fault : Fault}
    (makes : (ofDirectory session.host directory).made session.tree = (made, .error fault)) :
    (openAt directory).Leaves session (.error fault) made := by
  refine Work.leaves_of_result fun output => ?_
  rw [result_openAt, makes]
  rfl

theorem result_writeDocument {archive : Archive} {name : String} {document : Json}
    (stores : session.tree.write (archive.directory.child name).text
      (Text.Utf8.encode document.indented) = .ok tree) :
    (archive.writeDocument name document).result session =
      (.ok {
        name
        path := (archive.directory.child name).text
        size := (Text.Utf8.encode document.indented).length }, { session with tree }) := by
  change (Work.store _ _ >>= fun _ => _ : Work Stored).result session = _
  rw [Work.result_bind, Work.result_store stores]
  rfl

theorem of_result_writeDocument {archive : Archive} {name : String} {document : Json}
    {stored : Stored} {after : Session}
    (h : (archive.writeDocument name document).result session = (.ok stored, after)) :
    session.tree.write (archive.directory.child name).text (Text.Utf8.encode document.indented) =
      .ok after.tree := by
  obtain ⟨_, written, stores, h⟩ := Work.of_result_bind h
  cases h
  exact Work.of_result_store stores

theorem result_writeDocument_error {archive : Archive} {name : String} {document : Json}
    {fault : Fault} (fails : session.tree.write (archive.directory.child name).text
      (Text.Utf8.encode document.indented) = .error fault) :
    (archive.writeDocument name document).result session = (.error fault, session) := by
  change (Work.store _ _ >>= fun _ => _ : Work Stored).result session = _
  rw [Work.result_bind, Work.result_store_error fails]

theorem leaves_writeDocument {archive : Archive} {name : String} {document : Json}
    (stores : session.tree.write (archive.directory.child name).text
      (Text.Utf8.encode document.indented) = .ok tree) :
    (archive.writeDocument name document).Leaves session
      (.ok {
        name
        path := (archive.directory.child name).text
        size := (Text.Utf8.encode document.indented).length }) tree :=
  Work.leaves_of_result fun _ => result_writeDocument stores

theorem leaves_writeDocument_error {archive : Archive} {name : String} {document : Json}
    {fault : Fault} (fails : session.tree.write (archive.directory.child name).text
      (Text.Utf8.encode document.indented) = .error fault) :
    (archive.writeDocument name document).Leaves session (.error fault) session.tree :=
  Work.leaves_of_result fun _ => result_writeDocument_error fails

theorem writeTimeline_toJson (archive : Archive) (name now : String) (timeline : Timeline)
    (metadata : Fields) :
    archive.writeTimeline name (timeline.toJson now metadata) =
      archive.writeDocument name (timeline.toJson now metadata) := rfl

theorem result_writeTimeline {archive : Archive} {name now : String} {timeline : Timeline}
    {metadata : Fields}
    (stores : session.tree.write (archive.directory.child name).text
      (Text.Utf8.encode (timeline.toJson now metadata).indented) = .ok tree) :
    (archive.writeTimeline name (timeline.toJson now metadata)).result session =
      (.ok {
        name
        path := (archive.directory.child name).text
        size := (Text.Utf8.encode (timeline.toJson now metadata).indented).length },
        { session with tree }) := by
  rw [writeTimeline_toJson, result_writeDocument stores]

/-- A timeline that is written can be read if all its numbers are narrow, and only then. -/
theorem writeTimeline_ofReplay {settings : Trace.Settings} {lines : List (List Char)}
    {replay : Trace.Replay} (archive : Archive) (name now : String) {metadata : Fields}
    (run : Trace.Replay.run settings lines = .ok replay)
    (named : ∀ event ∈ replay.events.toList, event.function ≠ "")
    (texts : ∀ field ∈ metadata, field.2.IsText)
    (stores : session.tree.write (archive.directory.child name).text
      (Text.Utf8.encode ((Timeline.ofReplay settings replay).toJson now metadata).indented) =
        .ok tree) :
    let timeline := Timeline.ofReplay settings replay
    let document := timeline.toJson now metadata
    ∃ stored bytes,
      (archive.writeTimeline name document).result session = (.ok stored, { session with tree }) ∧
      tree.read stored.path = .ok bytes ∧
      ((∀ number ∈ document.numbers, number.IsNarrow) →
        Document.load stored.path (Document.textOf bytes) = .ok document ∧
        Document.allEntries (Document.textOf bytes) = .ok (timeline.entries.map Entry.toJson) ∧
        Document.functionNames (Document.textOf bytes) = .ok timeline.functions) ∧
      ((∃ number ∈ document.numbers, ¬ number.IsNarrow) →
        Document.load stored.path (Document.textOf bytes) = .error .notJson ∧
        Document.allEntries (Document.textOf bytes) = .error .notJson ∧
        Document.functionNames (Document.textOf bytes) = .error .notJson) := by
  intro timeline document
  refine ⟨_, _, result_writeTimeline stores, FileTree.read_of_write stores, ?_⟩
  rw [Document.textOf_encode, Timeline.load_toJson now texts, Timeline.allEntries_toJson now texts,
    Timeline.functionNames_toJson now run named texts]
  constructor
  · intro narrow
    rw [accept_narrow_eq_ok.mpr narrow]
    exact ⟨rfl, rfl, rfl⟩
  · intro wide
    obtain ⟨refusal, refused⟩ := accept_narrow_of_wide wide
    rw [refused]
    exact ⟨rfl, rfl, rfl⟩

def timedTrace (digits : List Char) : List (List Char) :=
  ["0) ".toList ++ digits ++ " us |  f();".toList]

def sampleTimeline (settings : Trace.Settings) (trace : List (List Char)) : Timeline :=
  Timeline.ofReplay settings ((Trace.Replay.run settings trace).toOption.getD {})

def workingArchive : Archive where
  directory := PlainPath.ofText "."

def emptySession : Session where
  host := { now := "", stamp := "", elapsed := "", release := "", processors := 1 }
  tree := { root := .dir [], workingDirectory := [] }

theorem emptySession_locate {name : String}
    (usable : name.contains '\x00' = false ∧ name.isEmpty = false ∧
      name.utf8ByteSize < FileTree.maxPath)
    (below : Path.segments name = [name] ∧ Path.isAbsolute name = false)
    (kept : ¬(name == "" || name == ".") = true) (notAbove : ¬(name == "..") = true)
    (short : ¬FileTree.maxName < name.utf8ByteSize) :
    emptySession.tree.locate true name = .ok (.free [] name) := by
  obtain ⟨segments, relative⟩ := below
  refine FileTree.locate_eq_ok.mpr ⟨usable, ?_⟩
  rw [segments, relative]
  exact FileTree.follow_free rfl kept notAbove short rfl

theorem emptySession_write_name {name : String} (bytes : List UInt8)
    (path : (workingArchive.directory.child name).text = name)
    (located : emptySession.tree.locate true name = .ok (.free [] name)) :
    emptySession.tree.write (workingArchive.directory.child name).text bytes =
      .ok { root := .dir [(name, .file bytes)], workingDirectory := [] } := by
  rw [path, FileTree.write, located]
  rfl

theorem emptySession_write (bytes : List UInt8) :
    emptySession.tree.write (workingArchive.directory.child timelineFile).text bytes =
      .ok { root := .dir [("timeline.json", .file bytes)], workingDirectory := [] } :=
  emptySession_write_name bytes (by decide +kernel) (emptySession_locate ⟨by cbv, by decide, by decide⟩
    (by decide +kernel) (by decide) (by decide) (by decide))

theorem run_of_isOk {settings : Trace.Settings} {trace : List (List Char)}
    (reads : (Trace.Replay.run settings trace).isOk = true) :
    Trace.Replay.run settings trace = .ok ((Trace.Replay.run settings trace).toOption.getD {}) := by
  cases h : Trace.Replay.run settings trace with
  | error fault =>
      rw [h] at reads
      cases reads
  | ok replay => rfl

theorem writeTimeline_ofReplay_sample :
    let timeline := sampleTimeline {} (timedTrace "1.333".toList)
    let document := timeline.toJson "" [("source", .str "trace.txt")]
    ∃ stored tree bytes,
      (workingArchive.writeTimeline timelineFile document).result emptySession =
        (.ok stored, { emptySession with tree }) ∧
      tree.read stored.path = .ok bytes ∧
      Document.load stored.path (Document.textOf bytes) = .ok document ∧
      Document.allEntries (Document.textOf bytes) = .ok (timeline.entries.map Entry.toJson) ∧
      Document.functionNames (Document.textOf bytes) = .ok timeline.functions := by
  intro timeline document
  have run := @run_of_isOk {} (timedTrace "1.333".toList) (by decide +kernel)
  have texts : ∀ field ∈ [("source", Json.str "trace.txt")], field.2.IsText := by simp [IsText]
  obtain ⟨stored, bytes, writes, reads, readable, -⟩ := writeTimeline_ofReplay workingArchive
    timelineFile "" run (by decide +kernel) texts (emptySession_write _)
  exact ⟨stored, _, bytes, writes, reads, readable (by decide +kernel)⟩

theorem writeTimeline_endless :
    let trace := timedTrace (List.replicate 310 '9')
    let document := (sampleTimeline {} trace).toJson "" []
    (∃ replay, Trace.Replay.run {} trace = .ok replay ∧
      sampleTimeline {} trace = Timeline.ofReplay {} replay ∧
      ∀ event ∈ replay.events.toList, event.function ≠ "") ∧
    ∃ stored tree bytes,
      (workingArchive.writeTimeline timelineFile document).result emptySession =
        (.ok stored, { emptySession with tree }) ∧
      tree.read stored.path = .ok bytes ∧
      Document.load stored.path (Document.textOf bytes) = .error .notJson ∧
      Document.allEntries (Document.textOf bytes) = .error .notJson ∧
      Document.functionNames (Document.textOf bytes) = .error .notJson := by
  intro trace document
  have run := @run_of_isOk {} trace (by decide +kernel)
  have named : ∀ event ∈ ((Trace.Replay.run {} trace).toOption.getD {}).events.toList,
      event.function ≠ "" := by decide +kernel
  have texts : ∀ field ∈ ([] : Fields), field.2.IsText := by simp
  obtain ⟨refusal, refused⟩ := @accept_narrow_of_wide document (by decide +kernel)
  have stores := emptySession_write (Text.Utf8.encode document.indented)
  refine ⟨⟨_, run, rfl, named⟩, _, _, _, result_writeTimeline stores,
    FileTree.read_of_write stores, ?_⟩
  rw [Document.textOf_encode]
  refine ⟨(Timeline.load_toJson "" texts _).trans ?_,
    (Timeline.allEntries_toJson "" texts).trans ?_,
    (Timeline.functionNames_toJson "" run named texts).trans ?_⟩
  all_goals
    change Except.map _ (Except.mapError _ (accept .narrow document)) = _
    rw [refused]
    rfl

end Archive

end CallTimeline
