import CallTimeline.Proofs.Archive.Documents
import CallTimeline.Proofs.FileTree.WorkingDirectory
import CallTimeline.Proofs.Workflow.Plan

namespace CallTimeline

open Source Json

namespace Workflow

open Archive

def Annotator.archive (annotator : Annotator) (host : Host) : Archive where
  directory := PlainPath.ofText
    (if annotator.outputDirectory.isEmpty then Archive.defaultDirectory host
    else annotator.outputDirectory)

/-- The directory for the output can be made and written to: there is room for the documents, and a
source that can be written is in the directory. -/
structure Annotator.Ready (annotator : Annotator) (session : Session) (directory : List String)
    (made : FileTree) : Prop where
  makes : session.tree.makeDirectories ((annotator.archive session.host).directory.names.length + 1)
    (annotator.archive session.host).directory = (made, .ok ())
  documents : ∀ name ∈ [databaseFile, annotatedFile, annotationFile],
    made.Takes ((annotator.archive session.host).directory.child name).text (directory ++ [name])
  sources : ∀ name place, made.Takes ((annotator.archive session.host).sourcePath name) place →
    place = directory ++ [sourceFile name]

namespace Annotator

variable {annotator : Annotator} {session : Session} {directory : List String} {made : FileTree}
  {archive : Archive} {plan : Plan} {path : String} {text : List Char}
  {entries : List (String × Location)}

theorem ready_here {entries : List (String × Node)} (here : annotator.outputDirectory = ".")
    (inside : session.tree.root.at? session.tree.workingDirectory = some (.dir entries))
    (free : ∀ name ∈ [databaseFile, annotatedFile, annotationFile], entries.lookup name = none)
    (unlinked : ∀ name target, entries.lookup name ≠ some (.link target)) :
    annotator.Ready session session.tree.workingDirectory session.tree := by
  have archive_eq : (annotator.archive session.host).directory = PlainPath.ofText "." := by
    rw [archive, here]
    rfl
  constructor
  case makes =>
    rw [archive_eq]
    have here_eq : PlainPath.ofText "." = { anchor := "", names := [] } := by decide +kernel
    rw [here_eq]
    exact FileTree.makeDirectories_here inside _
  case documents =>
    have proper : ∀ name ∈ [databaseFile, annotatedFile, annotationFile], Path.IsName name ∧
        '\x00' ∉ name.toList ∧ name.utf8ByteSize ≤ FileTree.maxName := by
      simp only [List.forall_mem_cons]
      exact ⟨⟨⟨by decide, by decide, by decide, by decide⟩, by decide, by decide +kernel⟩,
        ⟨⟨by decide, by decide, by decide, by decide⟩, by decide, by decide +kernel⟩,
        ⟨⟨by decide, by decide, by decide, by decide⟩, by decide, by decide +kernel⟩,
        List.forall_mem_nil _⟩
    intro name member
    obtain ⟨proper, usable, short⟩ := proper name member
    rw [archive_eq, proper.text_child]
    exact FileTree.takes_of_free inside proper
      (String.contains_char_eq.trans (decide_eq_false usable)) short (free name member)
  case sources =>
    intro name place takes
    have proper := isName_sourceFile name
    rw [sourcePath, archive_eq, proper.text_child] at takes
    exact FileTree.Takes.place_eq inside proper takes (unlinked _)

theorem result_openAt (ready : annotator.Ready session directory made) :
    (Archive.openAt annotator.outputDirectory).result session =
      (.ok (annotator.archive session.host), { session with tree := made }) := by
  have makes : (Archive.ofDirectory session.host annotator.outputDirectory).made session.tree =
      (made, .ok ()) := ready.makes
  rw [Archive.result_openAt, makes]
  rfl

theorem storeDocuments_cases (about : plan.About path text entries)
    (room : ∀ name ∈ [databaseFile, annotatedFile, annotationFile],
      session.tree.Takes (archive.directory.child name).text (directory ++ [name])) :
    ∃ tree, archive.HoldsDocument directory tree databaseFile (databaseOf entries) ∧
      archive.HoldsDocument directory tree annotatedFile plan.merged ∧
      match seriesOf plan.release with
      | .error fault =>
        (annotator.storeDocuments archive plan.release plan.merged plan.annotations
            plan.locations).result session = (.error fault, { session with tree }) ∧
          FileTree.FilesWritten (DocumentPlace directory [databaseFile, annotatedFile])
            session.tree tree
      | .ok _ => ∃ documents metadata,
        (annotator.storeDocuments archive plan.release plan.merged plan.annotations
            plan.locations).result session = (.ok documents, { session with tree }) ∧
          documents.map (·.name) = [databaseFile, annotatedFile, annotationFile] ∧
          archive.HoldsDocument directory tree annotationFile
            (annotationsOf metadata plan.annotations) ∧
          FileTree.FilesWritten
            (DocumentPlace directory [databaseFile, annotatedFile, annotationFile])
            session.tree tree := by
  obtain ⟨document, -, merges, -⟩ := about.merged
  obtain ⟨fields, -, items, -, located, -, merged⟩ := Merge.document_eq_ok.mp merges
  simp only [List.forall_mem_cons] at room
  obtain ⟨room, room', room'', -⟩ := room
  obtain ⟨database, first, write, name, holds, written⟩ :=
    exists_writeDocument room (databaseOf entries)
  obtain ⟨timeline, second, write', name', holds', written'⟩ :=
    @exists_writeDocument archive directory { session with tree := first } annotatedFile
      ((written.takes _ _).mpr room') plan.merged
  have apart : databaseFile ∉ [annotatedFile] := by decide
  have kept := holds.of_filesWritten written' (not_documentPlace apart)
  have both : FileTree.FilesWritten (DocumentPlace directory [databaseFile, annotatedFile])
      session.tree second :=
    (written.mono fun _ => documentPlace_mono (by simp)).trans
      (written'.mono fun _ => documentPlace_mono (by simp))
  have timeline_eq : ∀ session, (archive.writeTimeline annotatedFile plan.merged).result session =
      (archive.writeDocument annotatedFile plan.merged).result session := by
    rw [merged]
    exact result_writeTimeline_of_list (Fields.get?_set_self _ _)
  rw [storeDocuments, about.locations, Work.result_bind, result_writeDatabase, write]
  simp only
  rw [Work.result_bind, timeline_eq, write']
  simp only
  rw [Work.result_lift_bind]
  cases seriesOf plan.release with
  | error fault => exact ⟨second, kept, holds', rfl, both⟩
  | ok series =>
      simp only
      rw [Work.result_host_bind, Work.result_tree_bind, Work.result_bind]
      obtain ⟨annotated, tree, write'', name'', holds'', written''⟩ :=
        @exists_writeAnnotations archive directory { session with tree := second }
          ((both.takes _ _).mpr room'') plan.annotations
          (annotator.metadata session.host second plan.release series)
      refine ⟨tree, kept.of_filesWritten written'' (not_documentPlace (by decide)),
        holds'.of_filesWritten written'' (not_documentPlace (by decide)),
        [database, timeline, annotated], _, ?_, ?_, holds'', ?_⟩
      · rw [write'']
        rfl
      · simp [name, name', name'']
      · exact (both.mono fun _ => documentPlace_mono (by simp)).trans
          (written''.mono fun _ => documentPlace_mono (by simp))

structure Published (archive : Archive) (directory : List String) (text : List Char)
    (entries : List (String × Location)) (annotated : Annotated) (tree : FileTree) : Prop where
  documents : annotated.documents.map (·.name) = [databaseFile, annotatedFile, annotationFile]
  database : archive.HoldsDocument directory tree databaseFile (databaseOf entries)
  timeline : ∃ document names, archive.HoldsDocument directory tree annotatedFile document ∧
    documentNames document = .ok names ∧
    ∀ records, Document.HoldsTimeline text records → distinctNames names = entries.map (.str ·.1)
  annotations : ∃ metadata notes,
    archive.HoldsDocument directory tree annotationFile (annotationsOf metadata notes) ∧
    notes.map (·.1) = (inOrder entries).map (.str ·.1)
  paths : annotated.sources.Perm ((found entries).map fun entry => archive.sourcePath entry.1)
  sources : ∀ entry ∈ found entries, ∃ last ∈ found entries, sourceFile last.1 = sourceFile entry.1 ∧
    tree.read (archive.sourcePath entry.1) = .ok (Text.Utf8.encode (sourceText last.1 last.2))

theorem Ready.congr {between : Session} (ready : annotator.Ready session directory made)
    (tree : between.tree = session.tree) (host : between.host = session.host) :
    annotator.Ready between directory made where
  makes := by
    rw [tree, host]
    exact ready.makes
  documents := by
    rw [host]
    exact ready.documents
  sources := by
    rw [host]
    exact ready.sources

theorem not_sourcePlace_document {sources : List (String × Location)} {name : String}
    (known : name ∈ [databaseFile, annotatedFile, annotationFile]) :
    ¬ SourcePlace directory sources (directory ++ [name]) := by
  rintro ⟨source, -, same⟩
  obtain rfl := List.singleton_inj.mp (List.append_cancel_left same)
  exact sourceFile_ne_document _ known

theorem summary_named (entries : List (String × Location)) :
    ∃ summary, (Locations.named entries).summary = .ok summary := by
  have text : ∀ entry ∈ Locations.named entries, entry.1.IsText := by
    intro entry member
    obtain ⟨entry, -, rfl⟩ := List.mem_map.mp member
    exact ⟨_, rfl⟩
  obtain ⟨unresolved, unresolved_eq⟩ := unresolved_of_text text
  exact ⟨_, by rw [Locations.summary, unresolved_eq]; rfl⟩

theorem result_report (directory : String) (documents : List Stored) (sources : List String)
    (entries : List (String × Location)) (session : Session) :
    ∃ annotated output,
      (do
        (outputLines directory documents sources).forM Work.print
        return { directory, documents, sources, summary := ← (Locations.named entries).summary } :
          Work Annotated).result session = (.ok annotated, { session with output }) ∧
      annotated.documents = documents ∧ annotated.sources = sources := by
  obtain ⟨summary, summary_eq⟩ := summary_named entries
  obtain ⟨output, printed⟩ := (Work.prints_forM fun line _ => Work.prints_print line).result_bind_eq
    (fun _ => do
      return { directory, documents, sources, summary := ← (Locations.named entries).summary } :
        PUnit → Work Annotated) session
  refine ⟨{ directory, documents, sources, summary }, output, printed.trans ?_, rfl, rfl⟩
  rw [Work.result_lift_bind, summary_eq]
  rfl

section

variable {archive : Archive} (opened : annotator.archive session.host = archive)
  (ready : annotator.Ready session directory made) (about : plan.About path text entries)

include opened ready about

theorem storePlan_of_error {fault : Fault} (series : seriesOf plan.release = .error fault) :
    ∃ tree, (annotator.storePlan plan).result session = (.error fault, { session with tree }) ∧
      archive.HoldsDocument directory tree databaseFile (databaseOf entries) ∧
      archive.HoldsDocument directory tree annotatedFile plan.merged ∧
      FileTree.FilesWritten (DocumentPlace directory [databaseFile, annotatedFile]) made tree := by
  subst opened
  obtain ⟨tree, database, timeline, stored⟩ := @storeDocuments_cases annotator
    { session with tree := made } directory (annotator.archive session.host) _ _ _ _ about
    ready.documents
  rw [series] at stored
  obtain ⟨stops, written⟩ := stored
  refine ⟨tree, ?_, database, timeline, written⟩
  rw [storePlan, store, Work.result_bind, result_openAt ready]
  simp only
  rw [Work.result_bind, stops]

theorem storePlan_of_ok {series : String} (named : seriesOf plan.release = .ok series) :
    ∃ tree documents metadata,
      (annotator.storePlan plan).result session = (do
        let sources ← archive.writeSources (Locations.named entries)
        let directory := archive.directory.text
        (outputLines directory documents sources).forM Work.print
        return { directory, documents, sources, summary := ← (Locations.named entries).summary } :
          Work Annotated).result { session with tree } ∧
      documents.map (·.name) = [databaseFile, annotatedFile, annotationFile] ∧
      archive.HoldsDocument directory tree databaseFile (databaseOf entries) ∧
      archive.HoldsDocument directory tree annotatedFile plan.merged ∧
      archive.HoldsDocument directory tree annotationFile
        (annotationsOf metadata plan.annotations) ∧
      FileTree.FilesWritten (DocumentPlace directory [databaseFile, annotatedFile, annotationFile])
        made tree := by
  subst opened
  obtain ⟨tree, database, timeline, stored⟩ := @storeDocuments_cases annotator
    { session with tree := made } directory (annotator.archive session.host) _ _ _ _ about
    ready.documents
  rw [named] at stored
  obtain ⟨documents, metadata, stores, names, annotations, written⟩ := stored
  refine ⟨tree, documents, metadata, ?_, names, database, timeline, annotations, written⟩
  rw [storePlan, store, Work.result_bind, result_openAt ready]
  simp only
  rw [Work.result_bind, stores, about.locations]

theorem storePlan_published {series : String} (named : seriesOf plan.release = .ok series)
    (room : ∀ entry ∈ found entries,
      ∃ place, made.Takes (archive.sourcePath entry.1) place) :
    ∃ annotated after, (annotator.storePlan plan).result session = (.ok annotated, after) ∧
      Published archive directory text entries annotated after.tree := by
  subst opened
  obtain ⟨tree, documents, metadata, run, names, database, timeline, annotations, written⟩ :=
    storePlan_of_ok rfl ready about named
  have takes : ∀ source ∈ found entries,
      tree.Takes ((annotator.archive session.host).sourcePath source.1)
        (directory ++ [sourceFile source.1]) := by
    intro source member
    obtain ⟨place, there⟩ := room source member
    obtain rfl := ready.sources _ _ there
    exact (written.takes _ _).mpr there
  obtain ⟨after, writes, sources⟩ := @exists_writeSources (annotator.archive session.host)
    { session with tree } directory _ about.distinct
    (fun source member => about.sourced source (mem_found.mp member).1) takes
  obtain ⟨annotated, output, report, documents_eq, sources_eq⟩ := result_report
    (annotator.archive session.host).directory.text documents _ entries { session with tree := after }
  rw [Work.result_bind, writes] at run
  refine ⟨annotated, _, run.trans report, ?_⟩
  have kept {name : String} {document : Json}
      (known : name ∈ [databaseFile, annotatedFile, annotationFile])
      (holds : (annotator.archive session.host).HoldsDocument directory tree name document) :=
    holds.of_filesWritten sources.files (not_sourcePlace_document known)
  obtain ⟨document, loads, merges, -⟩ := about.merged
  have perm := found_inOrder_perm entries
  constructor
  case documents => rw [documents_eq, names]
  case database => exact kept (by simp) database
  case timeline =>
    obtain ⟨names', named'⟩ : ∃ names, documentNames plan.merged = .ok names :=
      exists_documentNames merges
    exact ⟨_, _, kept (by simp) timeline, named', fun records holds =>
      distinctNames_merged holds loads merges about.names named'⟩
  case annotations =>
    exact ⟨_, _, kept (by simp) annotations,
      Annotation.ofLocations_named (about.locations ▸ about.annotations)⟩
  case paths =>
    rw [sources_eq]
    exact perm.map _
  case sources =>
    intro entry member
    obtain ⟨last, among, same, -, holds⟩ := sources.last entry (perm.mem_iff.mpr member)
    exact ⟨last, perm.mem_iff.mp among, same,
      ((sources.files.takes _ _).mpr (takes entry member)).read holds⟩

theorem storePlan_stuck {series : String} (named : seriesOf plan.release = .ok series)
    (stuck : ∃ entry ∈ found entries,
      ∀ place, ¬ made.Takes (archive.sourcePath entry.1) place) :
    ∃ fault after metadata, (annotator.storePlan plan).result session = (.error fault, after) ∧
      archive.HoldsDocument directory after.tree databaseFile (databaseOf entries) ∧
      archive.HoldsDocument directory after.tree annotatedFile plan.merged ∧
      archive.HoldsDocument directory after.tree annotationFile
        (annotationsOf metadata plan.annotations) := by
  subst opened
  obtain ⟨tree, documents, metadata, run, names, database, timeline, annotations, written⟩ :=
    storePlan_of_ok rfl ready about named
  have perm := found_inOrder_perm entries
  obtain ⟨fault, after, stops, sources⟩ := @sources_stuck (annotator.archive session.host)
    { session with tree } directory (found (inOrder entries))
    (fun source member => about.sourced source (mem_found.mp (perm.mem_iff.mp member)).1)
    (fun source member place takes => ready.sources _ _ ((written.takes _ _).mp takes))
    (by
      obtain ⟨entry, member, blocked⟩ := stuck
      exact ⟨entry, perm.mem_iff.mpr member, fun place takes =>
        blocked place ((written.takes _ _).mp takes)⟩)
  rw [Work.result_bind, result_writeSources, stops] at run
  exact ⟨fault, _, metadata, run,
    database.of_filesWritten sources (not_sourcePlace_document (by simp)),
    timeline.of_filesWritten sources (not_sourcePlace_document (by simp)),
    annotations.of_filesWritten sources (not_sourcePlace_document (by simp))⟩

end

/-- A file of which something cannot be planned leaves all files as they were. Otherwise all is
written and about the same functions, unless the release has no series, which stops the run behind two
documents, or there is no room for a source, which stops it behind three. -/
theorem file_all_or_nothing {bytes : List UInt8} (file : session.tree.read path = .ok bytes)
    (ready : annotator.Ready session directory made) :
    let text := Document.textOf bytes
    let archive := annotator.archive session.host
    let run := (annotator.file path).result session
    match annotator.plan session path text with
    | .error fault => run.1 = .error fault ∧ run.2.tree = session.tree
    | .ok plan => ∃ entries, plan.About path text entries ∧
      match seriesOf plan.release with
      | .error fault => run.1 = .error fault ∧
        archive.HoldsDocument directory run.2.tree databaseFile (databaseOf entries) ∧
        archive.HoldsDocument directory run.2.tree annotatedFile plan.merged ∧
        FileTree.FilesWritten (DocumentPlace directory [databaseFile, annotatedFile]) made run.2.tree
      | .ok _ =>
        ((∀ entry ∈ found entries, ∃ place, made.Takes (archive.sourcePath entry.1) place) →
          ∃ annotated, run.1 = .ok annotated ∧
            Published archive directory text entries annotated run.2.tree) ∧
        ((∃ entry ∈ found entries, ∀ place, ¬ made.Takes (archive.sourcePath entry.1) place) →
          ∃ fault, run.1 = .error fault ∧
            archive.HoldsDocument directory run.2.tree databaseFile (databaseOf entries) ∧
            archive.HoldsDocument directory run.2.tree annotatedFile plan.merged ∧
            ∃ metadata, archive.HoldsDocument directory run.2.tree annotationFile
              (annotationsOf metadata plan.annotations)) := by
  intro text archive run
  obtain ⟨between, tree, host, run_eq⟩ := annotator.result_file_eq file
  change run = _ at run_eq
  cases planned : annotator.plan session path text with
  | error fault =>
      rw [planned] at run_eq
      rw [run_eq]
      exact ⟨rfl, tree⟩
  | ok plan =>
      rw [planned] at run_eq
      obtain ⟨entries, about⟩ := about_of_plan planned
      refine ⟨entries, about, ?_⟩
      change run = (annotator.storePlan plan).result between at run_eq
      have opened : annotator.archive between.host = archive := congrArg annotator.archive host
      have ready' := ready.congr tree host
      rw [run_eq]
      cases named : seriesOf plan.release with
      | error fault =>
          obtain ⟨after, stops, database, timeline, written⟩ :=
            storePlan_of_error opened ready' about named
          rw [stops]
          exact ⟨rfl, database, timeline, written⟩
      | ok series =>
          constructor
          · intro room
            obtain ⟨annotated, after, done, published⟩ :=
              storePlan_published opened ready' about named room
            rw [done]
            exact ⟨annotated, rfl, published⟩
          · intro stuck
            obtain ⟨fault, after, metadata, stops, database, timeline, annotations⟩ :=
              storePlan_stuck opened ready' about named stuck
            rw [stops]
            exact ⟨fault, rfl, database, timeline, metadata, annotations⟩

def blindAnnotator : Annotator where
  sourceRoot := "/"
  settings := { searchDirs := [], timeout := none }
  outputDirectory := "."

theorem blindAnnotator_ready (bytes : List UInt8) :
    blindAnnotator.Ready (fileSession bytes) [] (fileSession bytes).tree := by
  have other {name : String} (other : name ≠ "t.json") :
      List.lookup name [("t.json", Node.file bytes)] = none := by
    simp [List.lookup, beq_eq_false_iff_ne.mpr other]
  refine @ready_here blindAnnotator (fileSession bytes) [("t.json", .file bytes)] rfl rfl ?_ ?_
  · simp only [List.forall_mem_cons]
    exact ⟨other (by decide), other (by decide), other (by decide), List.forall_mem_nil _⟩
  · intro name target link
    by_cases same : name = "t.json"
    · subst same
      cases link
    · rw [other same] at link
      cases link

theorem exists_plan {names : List Json} {locations : Locations} {release : Json}
    (collected : Document.functionNames text = .ok names)
    (resolved : (annotator.resolve names).outcome session = .ok locations)
    (planned : (planFor path text locations).map (fun plan => (plan.release, plan.locations)) =
      .ok (release, locations)) :
    ∃ plan, annotator.plan session path text = .ok plan ∧ plan.release = release ∧
      plan.locations = locations := by
  obtain ⟨plan, planned, same⟩ := of_map_ok planned
  obtain ⟨release_eq, locations_eq⟩ := Prod.mk.inj same
  refine ⟨plan, ?_, release_eq, locations_eq⟩
  rw [Annotator.plan, collected, ok_bind, resolved, ok_bind, planned]

theorem plan_blind {path : String} {text : List Char} {release : Json} (session : Session)
    (names : Document.functionNames text = .ok [.str "f"])
    (loads : Document.load path text = .ok (.obj [
      ("metadata", .obj [("kernel_version", release)]),
      ("timeline", .arr [.obj [("function", .str "f")]])])) :
    ∃ plan, blindAnnotator.plan session path text = .ok plan ∧ plan.release = release ∧
      ∀ entries, plan.locations = Locations.named entries →
        entries = [("f", Location.placeholder (.str "f") .unresolved)] := by
  let locations : Locations := [(.str "f", Location.placeholder (.str "f") .unresolved)]
  have textual : ∀ name ∈ [Json.str "f"], name.IsText := by simp [IsText]
  have resolved : (blindAnnotator.resolve [.str "f"]).outcome session = .ok locations := by
    rw [outcome_resolve_of_text _ _ textual]
    rfl
  have planned : (planFor path text locations).map (fun plan => (plan.release, plan.locations)) =
      .ok (release, locations) := by
    rw [planFor, loads]
    cbv
  obtain ⟨plan, planned, release_eq, locations_eq⟩ := exists_plan names resolved planned
  refine ⟨plan, planned, release_eq, fun entries named => ?_⟩
  obtain ⟨⟨name, location⟩, rfl, same⟩ :=
    List.map_eq_singleton_iff.mp (named.symm.trans locations_eq)
  cases same
  rfl

def releasedFile : String :=
  "\x7b\"metadata\": \x7b\"kernel_version\": \"6.1\"\x7d, " ++
    "\"timeline\": [\x7b\"function\": \"f\"\x7d]\x7d"

theorem file_all_or_nothing_released :
    ∃ annotated after,
      (blindAnnotator.file "t.json").result (fileSession (Text.Utf8.encode releasedFile)) =
        (.ok annotated, after) ∧
      Published workingArchive [] releasedFile.toList
        [("f", Location.placeholder (.str "f") .unresolved)] annotated after.tree := by
  let bytes := Text.Utf8.encode releasedFile
  have text_eq : Document.textOf bytes = releasedFile.toList := Document.textOf_encode releasedFile
  have names : Document.functionNames (Document.textOf bytes) = .ok [.str "f"] := by
    rw [text_eq]
    cbv
  have loads : Document.load "t.json" (Document.textOf bytes) = .ok (.obj [
      ("metadata", .obj [("kernel_version", .str "6.1")]),
      ("timeline", .arr [.obj [("function", .str "f")]])]) := by
    rw [text_eq]
    cbv
  obtain ⟨plan, planned, release, locations⟩ := plan_blind (fileSession bytes) names loads
  have all := blindAnnotator.file_all_or_nothing (fileSession_read bytes) (blindAnnotator_ready bytes)
  simp only [planned, release] at all
  obtain ⟨entries, about, all⟩ := all
  obtain rfl := locations entries about.locations
  obtain ⟨annotated, done, published⟩ := all.1 (by simp [found, Location.isResolved, Location.placeholder])
  rw [text_eq] at published
  exact ⟨annotated, _, Prod.ext done rfl, published⟩

def numberedFile : String :=
  "\x7b\"metadata\": \x7b\"kernel_version\": 6\x7d, \"timeline\": [\x7b\"function\": \"f\"\x7d]\x7d"

theorem numberedFile_stops_late :
    let session := fileSession (Text.Utf8.encode numberedFile)
    (∀ name ∈ [databaseFile, annotatedFile], ∀ bytes, ¬ session.tree.HasFile [name] bytes) ∧
      ∃ after, (blindAnnotator.file "t.json").result session =
          (.error (.noOperation "int" "strip"), after) ∧
        ∀ name ∈ [databaseFile, annotatedFile], ∃ bytes, after.tree.HasFile [name] bytes := by
  intro session
  let bytes := Text.Utf8.encode numberedFile
  have text_eq : Document.textOf bytes = numberedFile.toList := Document.textOf_encode numberedFile
  have names : Document.functionNames (Document.textOf bytes) = .ok [.str "f"] := by
    rw [text_eq]
    cbv
  have loads : Document.load "t.json" (Document.textOf bytes) = .ok (.obj [
      ("metadata", .obj [("kernel_version", .int 6)]),
      ("timeline", .arr [.obj [("function", .str "f")]])]) := by
    rw [text_eq]
    cbv
  obtain ⟨plan, planned, release, -⟩ := plan_blind session names loads
  obtain ⟨entries, about⟩ := about_of_plan planned
  obtain ⟨between, tree, host, run⟩ := blindAnnotator.result_file_eq (fileSession_read bytes)
  have series : seriesOf plan.release = .error (.noOperation "int" "strip") := by
    rw [release]
    rfl
  obtain ⟨after, stops, database, timeline, -⟩ :=
    storePlan_of_error rfl ((blindAnnotator_ready bytes).congr tree host) about series
  refine ⟨?_, { between with tree := after }, ?_, ?_⟩
  · simp only [List.forall_mem_cons]
    refine ⟨?_, ?_, List.forall_mem_nil _⟩ <;> rintro _ ⟨⟩
  · rw [run, planned]
    exact stops
  · simp only [List.forall_mem_cons]
    exact ⟨⟨_, database.file⟩, ⟨_, timeline.file⟩, List.forall_mem_nil _⟩

end Annotator

end Workflow

end CallTimeline
