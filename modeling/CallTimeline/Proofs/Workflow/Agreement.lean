import CallTimeline.Proofs.Workflow.Publishing

/-!
# Both readings of a file

The names are collected while a file is read entry by entry, and the document that is annotated is
read as a whole. Both readings agree, so the timeline that is written is what the whole document is
annotated to (`file_eq_whole`).
-/

namespace CallTimeline.Workflow.Annotator

open Source Json Work Archive

variable {annotator : Annotator} {session after : Session} {archive : Archive} {plan : Plan}
  {annotated : Annotated} {path : String}

theorem of_result_storeDocuments {release merged : Json} {annotations : List (Json × Annotation)}
    {locations : Locations} {documents : List Stored}
    (h : (annotator.storeDocuments archive release merged annotations locations).result session =
      (.ok documents, after)) :
    (∀ path place, after.tree.Takes path place ↔ session.tree.Takes path place) ∧
      archive.WroteDocument [(archive.directory.child annotationFile).text] after.tree annotatedFile
        merged := by
  obtain ⟨_, first, database, h⟩ := of_result_bind h
  obtain ⟨_, second, timeline, h⟩ := of_result_bind h
  obtain ⟨_, _, series, h⟩ := of_result_bind h
  rw [result_lift] at series
  obtain ⟨-, rfl⟩ := Prod.mk.inj series
  rw [result_host_bind, result_tree_bind] at h
  obtain ⟨_, third, notes, h⟩ := of_result_bind h
  cases h
  rw [writeDatabase, result_lift_bind] at database
  split at database
  case h_2 => cases database
  rw [writeTimeline, result_lift_bind] at timeline
  split at timeline
  case h_2 => cases timeline
  split at timeline
  case h_2 => cases timeline
  have written := FileTree.filesWritten_of_write (of_result_writeDocument database)
  have written' := FileTree.filesWritten_of_write (of_result_writeDocument timeline)
  have written'' := FileTree.filesWritten_of_write (of_result_writeDocument notes)
  exact ⟨((written.append written').append written'').takes,
    (wroteDocument_of_result timeline).of_filesWritten written''⟩

theorem of_result_storePlan
    (h : (annotator.storePlan plan).result session = (.ok annotated, after)) :
    let archive := annotator.archive session.host
    ∃ made, archive.made session.tree = (made, .ok ()) ∧
      (∀ path place, after.tree.Takes path place ↔ made.Takes path place) ∧
      archive.WroteDocument ((archive.directory.child annotationFile).text :: annotated.sources)
        after.tree annotatedFile plan.merged ∧
      ∀ path ∈ annotated.sources, ∃ name, archive.sourcePath name = path := by
  intro archive
  rw [storePlan, store] at h
  obtain ⟨_, opened, opens, h⟩ := of_result_bind h
  obtain ⟨documents, stored, stores, h⟩ := of_result_bind h
  obtain ⟨sources, written, writes, h⟩ := of_result_bind h
  obtain ⟨output, h⟩ := (prints_forM fun line _ => prints_print line).of_result_bind h
  rw [result_lift_bind] at h
  split at h
  case h_2 => cases h
  cases h
  rw [Archive.result_openAt] at opens
  change (((archive.made session.tree).2.map fun _ => archive),
    { session with tree := (archive.made session.tree).1 }) = _ at opens
  rcases opening : archive.made session.tree with ⟨made, _ | _⟩
  case error =>
    rw [opening] at opens
    cases opens
  case ok =>
    rw [opening] at opens
    cases opens
    obtain ⟨takes, wrote⟩ := of_result_storeDocuments stores
    obtain ⟨named, files⟩ := of_result_writeSources writes
    exact ⟨made, rfl, fun path place => (files.takes path place).trans (takes path place),
      wrote.of_filesWritten files, named⟩

theorem Ready.holdsDocument {made : FileTree} {directory : List String} {tree : FileTree}
    {document : Json} {sources : List String} (ready : annotator.Ready session directory made)
    (takes : ∀ path place, tree.Takes path place ↔ made.Takes path place)
    (named : ∀ path ∈ sources, ∃ name, (annotator.archive session.host).sourcePath name = path)
    (wrote : (annotator.archive session.host).WroteDocument
      (((annotator.archive session.host).directory.child annotationFile).text :: sources) tree
      annotatedFile document) :
    (annotator.archive session.host).HoldsDocument directory tree annotatedFile document := by
  refine wrote.holdsDocument ((takes _ _).mpr (ready.documents _ (by simp))) ?_
  rintro ⟨path, member, leads⟩
  obtain rfl | member := List.mem_cons.mp member
  · have other := leads.unique ((takes _ _).mpr (ready.documents annotationFile (by simp)))
    exact absurd (List.singleton_inj.mp (List.append_cancel_left other)) (by decide)
  · obtain ⟨name, rfl⟩ := named path member
    have other := ready.sources name _ ((takes _ _).mp leads)
    refine sourceFile_ne_document name ?_
    rw [← List.singleton_inj.mp (List.append_cancel_left other)]
    simp

theorem Ready.holdsDocument_storePlan {made : FileTree} {directory : List String} {text : List Char}
    {entries : List (String × Location)} (ready : annotator.Ready session directory made)
    (about : plan.About path text entries) :
    (annotator.archive session.host).HoldsDocument directory
      ((annotator.storePlan plan).result session).2.tree annotatedFile plan.merged := by
  cases named : seriesOf plan.release with
  | error fault =>
      obtain ⟨tree, stops, -, timeline, -⟩ := storePlan_of_error rfl ready about named
      rw [stops]
      exact timeline
  | ok series =>
      by_cases room : ∀ entry ∈ found entries,
          ∃ place, made.Takes ((annotator.archive session.host).sourcePath entry.1) place
      · obtain ⟨annotated, after, done, -⟩ := storePlan_published rfl ready about named room
        obtain ⟨made', makes, takes, wrote, sources⟩ := of_result_storePlan done
        obtain rfl : made = made' := congrArg Prod.fst (ready.makes.symm.trans makes)
        rw [done]
        exact ready.holdsDocument takes sources wrote
      · push Not at room
        obtain ⟨fault, after, metadata, stops, -, timeline, -⟩ :=
          storePlan_stuck rfl ready about named room
        rw [stops]
        exact timeline

/-- What the document that a text holds is annotated to. -/
def documentOf (annotator : Annotator) (session : Session) (path : String) (text : List Char) :
    Except Fault Json := do
  let document ← Document.load path text
  (annotator.document document).outcome session

theorem outcome_document_eq (annotator : Annotator) (document : Json) (session : Session) :
    (annotator.document document).outcome session = (do
      let names ← documentNames document
      let locations ← (annotator.resolve names).outcome session
      Merge.document locations document) := by
  rw [Annotator.document, outcome_lift_bind]
  cases documentNames document with
  | error fault => rfl
  | ok names => exact outcome_bind_lift _ _ _

section

variable {bytes : List UInt8} {entries : List Fields}
  (holds : Document.HoldsTimeline (Document.textOf bytes) entries)

include holds

theorem functionNames_eq_load
    (named : ∀ fields ∈ entries, Merge.nameOf fields = .null ∨ (Merge.nameOf fields).IsText) :
    Document.functionNames (Document.textOf bytes) =
      Document.load path (Document.textOf bytes) >>= fun document =>
        (documentNames document).map distinctNames := by
  obtain ⟨fields, timeline, loads⟩ := holds.exists_load
  rw [loads, holds.functionNames_eq (namesWell_of_named named)]
  cases accepted (readFirst .narrow (Document.textOf bytes)) with
  | error refusal => rfl
  | ok =>
      change _ = (documentNames (.obj fields)).map distinctNames
      rw [documentNames_obj timeline]
      rfl

theorem isText_of_load
    (named : ∀ fields ∈ entries, Merge.nameOf fields = .null ∨ (Merge.nameOf fields).IsText)
    {document : Json} {names : List Json}
    (loads : Document.load path (Document.textOf bytes) = .ok document)
    (names_eq : documentNames document = .ok names) : ∀ name ∈ names, name.IsText := by
  obtain ⟨fields, timeline, loads'⟩ := holds.exists_load
  rw [loads'] at loads
  cases here : accepted (readFirst .narrow (Document.textOf bytes)) with
  | error refusal =>
      rw [here] at loads
      cases loads
  | ok =>
      rw [here] at loads
      cases loads
      rw [documentNames_obj timeline] at names_eq
      cases names_eq
      exact isText_of_named named

theorem plan_of_document (annotator : Annotator) (session : Session) (path : String)
    (named : ∀ fields ∈ entries, Merge.nameOf fields = .null ∨ (Merge.nameOf fields).IsText) :
    match annotator.documentOf session path (Document.textOf bytes) with
    | .error fault => annotator.plan session path (Document.textOf bytes) = .error fault
    | .ok merged => ∀ plan, annotator.plan session path (Document.textOf bytes) = .ok plan →
        plan.merged = merged := by
  rw [Annotator.plan, functionNames_eq_load holds named]
  simp only [documentOf, outcome_document_eq, planFor]
  cases loads : Document.load path (Document.textOf bytes) with
  | error fault => rfl
  | ok document =>
      simp only [ok_bind]
      cases names_eq : documentNames document with
      | error fault => rfl
      | ok names =>
          have alike : (annotator.resolve (distinctNames names)).outcome session =
              (annotator.resolve names).outcome session :=
            congrArg Prod.fst (resolve_distinctNames annotator
              (isText_of_load holds named loads names_eq) session)
          simp only [ok_bind, Except.map, alike]
          cases (annotator.resolve names).outcome session with
          | error fault => rfl
          | ok locations =>
              simp only [ok_bind]
              cases Merge.document locations document with
              | error fault => rfl
              | ok merged =>
                  intro plan planned
                  rw [ok_bind] at planned
                  obtain ⟨release, -, planned⟩ := of_bind_ok planned
                  obtain ⟨annotations, -, planned⟩ := of_bind_ok planned
                  cases planned
                  rfl

theorem file_of_document (file : session.tree.read path = .ok bytes)
    (named : ∀ fields ∈ entries, Merge.nameOf fields = .null ∨ (Merge.nameOf fields).IsText) :
    let archive := annotator.archive session.host
    let run := (annotator.file path).result session
    match annotator.documentOf session path (Document.textOf bytes) with
    | .error fault => run.1 = .error fault ∧ run.2.tree = session.tree
    | .ok merged =>
      (∀ annotated, run.1 = .ok annotated →
        archive.WroteDocument ((archive.directory.child annotationFile).text :: annotated.sources)
          run.2.tree annotatedFile merged) ∧
      ∀ directory made, annotator.Ready session directory made →
        (∃ annotated, run.1 = .ok annotated) ∨ run.2.tree ≠ session.tree →
          archive.HoldsDocument directory run.2.tree annotatedFile merged := by
  intro archive run
  obtain ⟨between, tree, host, run_eq⟩ := annotator.result_file_eq file
  have planned := plan_of_document holds annotator session path named
  change run = _ at run_eq
  cases whole : annotator.documentOf session path (Document.textOf bytes) with
  | error fault =>
      rw [whole] at planned
      rw [planned] at run_eq
      rw [run_eq]
      exact ⟨rfl, tree⟩
  | ok merged =>
      rw [whole] at planned
      cases plan_eq : annotator.plan session path (Document.textOf bytes) with
      | error fault =>
          -- Something beside the document cannot be planned, so nothing has been stored.
          rw [plan_eq] at run_eq
          simp [run_eq, tree]
      | ok plan =>
          rw [plan_eq] at run_eq
          obtain ⟨entries, about⟩ := about_of_plan plan_eq
          obtain rfl := planned plan plan_eq
          change run = (annotator.storePlan plan).result between at run_eq
          rw [run_eq]
          constructor
          · intro annotated done
            obtain ⟨made, -, -, wrote, -⟩ := of_result_storePlan (Prod.ext done rfl)
            rw [host] at wrote
            exact wrote
          · intro directory made ready _
            have holds := (ready.congr tree host).holdsDocument_storePlan about
            rw [host] at holds
            exact holds

/-- The entries of a file are those of the document that it holds. If they are named by text or not
at all, so are the names, and annotating the file is annotating the document. Where the document
cannot be annotated, the run fails and touches no file. A run that ends well has written what the
document is annotated to, and nothing replaces it but what is written later to the same place. In a
directory that is ready no such thing happens, and a run that fails later leaves it there as well. -/
theorem file_eq_whole (file : session.tree.read path = .ok bytes) :
    let text := Document.textOf bytes
    let archive := annotator.archive session.host
    let run := (annotator.file path).result session
    (Document.allEntries text).map .arr = Document.load path text >>= (·.field "timeline") ∧
      (∀ value, Json.read .narrow text = .ok value →
        Document.allEntries text = .ok (entries.map .obj)) ∧
      ((∀ fields ∈ entries, Merge.nameOf fields = .null ∨ (Merge.nameOf fields).IsText) →
        Document.functionNames text =
            (Document.load path text >>= fun document =>
              (documentNames document).map distinctNames) ∧
          run = (annotator.whole path).result session ∧
          match annotator.documentOf session path text with
          | .error fault => run.1 = .error fault ∧ run.2.tree = session.tree
          | .ok merged =>
            (∀ annotated, run.1 = .ok annotated →
              archive.WroteDocument
                ((archive.directory.child annotationFile).text :: annotated.sources)
                run.2.tree annotatedFile merged) ∧
            ∀ directory made, annotator.Ready session directory made →
              (∃ annotated, run.1 = .ok annotated) ∨ run.2.tree ≠ session.tree →
                archive.HoldsDocument directory run.2.tree annotatedFile merged) := by
  intro text archive run
  refine ⟨holds.allEntries_eq_load path, fun value reads => ?_, fun named => ?_⟩
  · obtain ⟨rest, first, -⟩ := read_eq_ok.mp reads
    rw [holds.allEntries_eq, first]
    rfl
  · exact ⟨functionNames_eq_load holds named, annotator.result_file file holds named,
      file_of_document holds file named⟩

end

def sampleFile : String :=
  " \x7b\"n\": [null],\n\"timeline\" : [\x7b\"function\": \"f\", \"timeline\": [1]\x7d,\n" ++
    "\x7b\"func\": \"g\", \"function\": null\x7d, \x7b\x7d,\t\x7b\"function\": \"f\"\x7d]\x7d\n"

def sampleEntries : List Fields :=
  [[("function", .str "f"), ("timeline", .arr [.int 1])], [("func", .str "g"), ("function", .null)],
    [], [("function", .str "f")]]

def sampleMerged : Json :=
  .obj [
    ("n", .arr [.null]),
    ("timeline", .arr [
      .obj [("function", .str "f"), ("timeline", .arr [.int 1]), ("file", .str "unknown/f.c"),
        ("line", .int 1000)],
      .obj [("func", .str "g"), ("function", .null), ("file", .str "unknown/g.c"),
        ("line", .int 1000)],
      .obj [],
      .obj [("function", .str "f"), ("file", .str "unknown/f.c"), ("line", .int 1000)]]),
    ("metadata", .obj [])]

def sampleWhole : Json :=
  .obj [("n", .arr [.null]), ("timeline", .arr (sampleEntries.map .obj)), ("metadata", .obj [])]

theorem written_sampleFile :
    writtenFields .narrow sampleFile.toList =
      .ok [("n", .arr [.null]), ("timeline", .arr (sampleEntries.map .obj))] := by cbv

theorem holds_sample : Document.HoldsTimeline sampleFile.toList sampleEntries :=
  .document _ (narrow_within_unbounded.writtenFields written_sampleFile) (by simp) (by simp) rfl

theorem named_sample : ∀ fields ∈ sampleEntries,
    Merge.nameOf fields = .null ∨ (Merge.nameOf fields).IsText := by
  simp only [sampleEntries, List.forall_mem_cons]
  exact ⟨.inr ⟨"f", rfl⟩, .inr ⟨"g", rfl⟩, .inl rfl, .inr ⟨"f", rfl⟩, List.forall_mem_nil _⟩

theorem load_sample : Document.load "t.json" sampleFile.toList = .ok sampleWhole := by cbv

theorem documentNames_sample :
    documentNames sampleWhole = .ok [.str "f", .str "g", .str "f"] := by rfl

theorem functionNames_sample :
    Document.functionNames sampleFile.toList = .ok [.str "f", .str "g"] := by
  have text_eq : Document.textOf (Text.Utf8.encode sampleFile) = sampleFile.toList :=
    Document.textOf_encode sampleFile
  have names := @functionNames_eq_load "t.json" _ _ (text_eq ▸ holds_sample) named_sample
  rw [text_eq, load_sample, ok_bind, documentNames_sample] at names
  exact names

def sampleLocations : List (String × Location) :=
  ["f", "g"].map fun name => (name, Location.placeholder (.str name) .unresolved)

theorem resolve_sample {names : List Json} (bytes : List UInt8)
    (textual : ∀ name ∈ names, name.IsText)
    (distinct : distinctNames names = [.str "f", .str "g"]) :
    (blindAnnotator.resolve names).outcome (fileSession bytes) =
      .ok (Locations.named sampleLocations) := by
  have alone (names : List Json) : isShared blindAnnotator.settings 1 names = false :=
    Bool.and_false _
  rw [outcome_resolve_of_text _ _ textual, distinct]
  change Except.map _ (blindAnnotator.settings.cutShort? 1 _) = _
  rw [cutShort?_of_not_shared (alone _)]
  rfl

theorem merge_sample :
    Merge.document (Locations.named sampleLocations) sampleWhole = .ok sampleMerged := by rfl

theorem documentOf_sample (bytes : List UInt8) :
    blindAnnotator.documentOf (fileSession bytes) "t.json" sampleFile.toList = .ok sampleMerged := by
  rw [documentOf, load_sample, ok_bind, outcome_document_eq, documentNames_sample, ok_bind,
    resolve_sample bytes (by simp [IsText]) (by rfl), ok_bind, merge_sample]

theorem file_sample_ok :
    ∃ annotated after,
      (blindAnnotator.file "t.json").result (fileSession (Text.Utf8.encode sampleFile)) =
        (.ok annotated, after) := by
  let bytes := Text.Utf8.encode sampleFile
  have text_eq : Document.textOf bytes = sampleFile.toList := Document.textOf_encode sampleFile
  have planned : (planFor "t.json" sampleFile.toList (Locations.named sampleLocations)).map
      (fun plan => (plan.release, plan.locations)) =
        .ok (.str "unknown", Locations.named sampleLocations) := by
    rw [planFor, load_sample, ok_bind, merge_sample]
    cbv
  obtain ⟨plan, planned, release, locations⟩ := exists_plan functionNames_sample
    (resolve_sample bytes (by simp [IsText]) (by rfl)) planned
  obtain ⟨entries, about⟩ := about_of_plan planned
  have nothing : found entries = [] := by
    obtain rfl := Locations.named_injective (locations.symm.trans about.locations)
    rfl
  have series : seriesOf plan.release = .ok (Kernel.series "unknown") := by rw [release]; rfl
  obtain ⟨between, tree, host, run⟩ := blindAnnotator.result_file_eq (fileSession_read bytes)
  obtain ⟨annotated, after, done, -⟩ := storePlan_published rfl
    ((blindAnnotator_ready bytes).congr tree host) about series (by simp [nothing])
  rw [text_eq, planned] at run
  exact ⟨annotated, after, run.trans done⟩

theorem file_eq_whole_sample :
    let session := fileSession (Text.Utf8.encode sampleFile)
    let text := Document.textOf (Text.Utf8.encode sampleFile)
    Document.allEntries text = .ok (sampleEntries.map .obj) ∧
      Document.functionNames text = .ok [.str "f", .str "g"] ∧
      ∃ annotated after,
        (blindAnnotator.file "t.json").result session = (.ok annotated, after) ∧
        (blindAnnotator.whole "t.json").result session = (.ok annotated, after) ∧
        workingArchive.HoldsDocument [] after.tree annotatedFile sampleMerged := by
  intro session text
  have text_eq : text = sampleFile.toList := Document.textOf_encode sampleFile
  have reads := read_eq_obj.mpr ⟨_, written_sampleFile, rfl⟩
  obtain ⟨-, complete, alike⟩ := @file_eq_whole blindAnnotator session "t.json" _ _
    (text_eq ▸ holds_sample) (fileSession_read _)
  obtain ⟨-, run, writes⟩ := alike named_sample
  obtain ⟨annotated, after, done⟩ := file_sample_ok
  refine ⟨complete _ (text_eq ▸ reads), text_eq ▸ functionNames_sample, annotated, after, done,
    run ▸ done, ?_⟩
  have whole : blindAnnotator.documentOf session "t.json" text = .ok sampleMerged :=
    text_eq ▸ documentOf_sample (Text.Utf8.encode sampleFile)
  rw [whole] at writes
  have holds := writes.2 [] _ (blindAnnotator_ready _) (.inl ⟨annotated, congrArg Prod.fst done⟩)
  rw [done] at holds
  exact holds

end CallTimeline.Workflow.Annotator
