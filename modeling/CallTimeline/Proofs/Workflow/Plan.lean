import CallTimeline.Proofs.Annotation.Composition
import CallTimeline.Proofs.Archive.Sources
import CallTimeline.Proofs.Workflow.File

/-!
# What an annotation is going to store

All that is stored about a file is known before the first file is written: annotating a file is making
a plan, which may fail and changes no file, and storing it (`result_file_eq`). A plan is about the
functions of the file, all of them named by text (`about_of_plan`), and these are the functions of the
annotated document as well (`distinctNames_merged`).
-/

namespace CallTimeline

open Source Json

theorem Annotation.of_ofLocations {locations : Locations} {notes : List (Json × Annotation)}
    (h : ofLocations locations = .ok notes) {entry : Json × Location} (member : entry ∈ locations) :
    entry.2.function.IsText ∧ (Numeral.int entry.2.line).IsShort ∧
      (Numeral.int entry.2.lastLine).IsShort := by
  obtain ⟨sorted, order, h⟩ := of_bind_ok h
  have among : entry ∈ sorted := by
    unfold sortByName at order
    split at order
    case h_1 => cases order
    case h_2 =>
      cases order
      exact List.mem_mergeSort.mpr member
  obtain ⟨_, annotated⟩ := exists_of_mapM_ok h among
  obtain ⟨note, annotated, -⟩ := of_bind_ok annotated
  exact of_ofLocation annotated

theorem Annotation.ofLocations_named {entries : List (String × Location)}
    {notes : List (Json × Annotation)} (h : ofLocations (Locations.named entries) = .ok notes) :
    notes.map (·.1) = (inOrder entries).map (.str ·.1) := by
  rw [ofLocations, Locations.sortByName_named, ok_bind] at h
  have names : (Locations.named (inOrder entries)).map (·.1) = (inOrder entries).map (.str ·.1) := by
    rw [Locations.named, List.map_map]
    rfl
  rw [← names]
  refine map_of_mapM_ok (fun entry noted done => ?_) h
  obtain ⟨_, -, done⟩ := of_bind_ok done
  cases done
  rfl

namespace Workflow

open Work

theorem documentNames_merged {locations : Locations} {document merged : Json}
    (merges : Merge.document locations document = .ok merged) :
    documentNames merged = documentNames document := by
  obtain ⟨fields, rfl, items, items_eq, entries, entries_eq, rfl⟩ := Merge.document_eq_ok.mp merges
  have names : entries.mapM (fun entry => do return Merge.nameOf (← entry.fields)) =
      (items.mapM fun entry => do return Merge.nameOf (← entry.fields) :
        Except Fault (List Json)) := by
    refine mapM_of_mapM_ok (fun item entry located => ?_) entries_eq
    obtain ⟨own, rfl, -, level, level_eq, whole, framed, rfl⟩ := Merge.entry_eq_ok.mp located
    exact congrArg Except.ok (Merge.nameOf_merged _ level_eq framed)
  have listed : (((fields.set "timeline" (.arr entries)).get? "timeline").getD (.arr [])).parts =
      .ok entries := by
    rw [Fields.get?_set_self]
    rfl
  rw [documentNames_of_parts listed, documentNames_of_parts items_eq, names]

theorem exists_documentNames {locations : Locations} {document merged : Json}
    (merges : Merge.document locations document = .ok merged) :
    ∃ names, documentNames merged = .ok names := by
  rw [documentNames_merged merges]
  obtain ⟨fields, rfl, items, items_eq, entries, entries_eq, -⟩ := Merge.document_eq_ok.mp merges
  have named : ∀ item ∈ items, ∃ name,
      (do return Merge.nameOf (← item.fields) : Except Fault Json) = .ok name := by
    intro item member
    obtain ⟨_, located⟩ := exists_of_mapM_ok entries_eq member
    obtain ⟨own, rfl, -⟩ := Merge.entry_eq_ok.mp located
    exact ⟨_, rfl⟩
  obtain ⟨names, names_eq⟩ := mapM_ok_of_forall named
  exact ⟨_, by rw [documentNames_of_parts items_eq, names_eq]; rfl⟩

theorem distinctNames_merged {text : List Char} {path : String} {locations : Locations}
    {records : List Fields} {document merged : Json} {names names' : List Json}
    (holds : Document.HoldsTimeline text records)
    (loads : Document.load path text = .ok document)
    (merges : Merge.document locations document = .ok merged)
    (collected : Document.functionNames text = .ok names)
    (named : documentNames merged = .ok names') : distinctNames names' = names := by
  obtain ⟨fields, timeline, loaded⟩ := holds.exists_load
  rw [loaded path] at loads
  cases here : accepted (readFirst .narrow text) with
  | error refusal =>
      rw [here] at loads
      cases loads
  | ok =>
      rw [here] at loads
      cases loads
      have well : ∀ record ∈ records, Document.NamesWell record := by
        obtain ⟨fields', same, items, items_eq, entries, entries_eq, -⟩ :=
          Merge.document_eq_ok.mp merges
        cases same
        rw [timeline] at items_eq
        cases items_eq
        intro record member _
        obtain ⟨_, merged⟩ := exists_of_mapM_ok entries_eq (List.mem_map_of_mem member)
        obtain ⟨_, same, checked, -⟩ := Merge.entry_eq_ok.mp merged
        cases same
        exact checked
      rw [holds.functionNames_eq well, here] at collected
      cases collected
      rw [documentNames_merged merges, documentNames_obj timeline] at named
      cases named
      rfl

structure Plan where
  locations : Locations
  merged : Json
  release : Json
  annotations : List (Json × Annotation)

namespace Annotator

variable (annotator : Annotator)

def planFor (path : String) (text : List Char) (locations : Locations) : Except Fault Plan := do
  let document ← Document.load path text
  let merged ← Merge.document locations document
  let release ← kernelRelease document
  let annotations ← Annotation.ofLocations locations
  return { locations, merged, release, annotations }

def plan (session : Session) (path : String) (text : List Char) : Except Fault Plan := do
  let names ← Document.functionNames text
  let locations ← (annotator.resolve names).outcome session
  planFor path text locations

def storePlan (plan : Plan) : Work Annotated :=
  annotator.store plan.release plan.merged plan.annotations plan.locations

theorem keeps_resolve (names : List Json) : (annotator.resolve names).Keeps := by
  refine (keeps_forIn_lift checkName names).bind fun _ => ?_
  refine (prints_print _).keeps.bind fun _ => ?_
  refine Keeps.bind (fun _ => ⟨rfl, rfl⟩) fun host => ?_
  refine Keeps.bind (fun _ => ⟨rfl, rfl⟩) fun tree => ?_
  refine (keeps_lift _).bind fun resolutions => ?_
  refine (prints_reports resolutions).keeps.bind fun _ => ?_
  refine Keeps.bind (fun _ => ⟨rfl, rfl⟩) fun _ => ?_
  refine (keeps_lift _).bind fun _ => ?_
  exact (prints_print _).keeps.bind fun _ => (prints_pure _).keeps

theorem outcome_resolve_congr {session session' : Session} (names : List Json)
    (tree : session'.tree = session.tree) (host : session'.host = session.host) :
    (annotator.resolve names).outcome session' = (annotator.resolve names).outcome session := by
  rw [outcome_resolve, outcome_resolve, tree, host]

variable {session : Session} {path : String} {bytes : List UInt8}

theorem result_planFor (file : session.tree.read path = .ok bytes) (locations : Locations) :
    (do let document ← Document.load path (Document.textOf (← contents path))
        let merged ← Merge.document locations document
        annotator.publish document merged locations : Work Annotated).result session =
      match planFor path (Document.textOf bytes) locations with
      | .ok plan => (annotator.storePlan plan).result session
      | .error fault => (.error fault, session) := by
  rw [result_contents_bind file, result_lift_bind, planFor]
  cases Document.load path (Document.textOf bytes) with
  | error fault => rfl
  | ok document =>
      rw [ok_bind]
      simp only
      rw [result_lift_bind]
      cases Merge.document locations document with
      | error fault => rfl
      | ok merged =>
          rw [ok_bind]
          simp only
          rw [publish, result_lift_bind]
          cases kernelRelease document with
          | error fault => rfl
          | ok release =>
              rw [ok_bind]
              simp only
              rw [result_lift_bind]
              cases Annotation.ofLocations locations <;> rfl

/-- A file is annotated by planning and storing: nothing is stored before all is known. -/
theorem result_file_eq (file : session.tree.read path = .ok bytes) :
    ∃ between : Session, between.tree = session.tree ∧ between.host = session.host ∧
      (annotator.file path).result session =
        match annotator.plan session path (Document.textOf bytes) with
        | .ok plan => (annotator.storePlan plan).result between
        | .error fault => (.error fault, between) := by
  rw [Annotator.file, result_contents_bind file, result_lift_bind, plan]
  cases Document.functionNames (Document.textOf bytes) with
  | error fault => exact ⟨session, rfl, rfl, rfl⟩
  | ok names =>
      obtain ⟨output, printed⟩ := (prints_print (foundLine names path)).result_bind_eq
        (fun _ => do
          let locations ← annotator.resolve names
          let document ← Document.load path (Document.textOf (← contents path))
          let merged ← Merge.document locations document
          annotator.publish document merged locations) session
      obtain ⟨between, tree, host, resolved⟩ := (annotator.keeps_resolve names).result_bind_eq
        (fun locations => do
          let document ← Document.load path (Document.textOf (← contents path))
          let merged ← Merge.document locations document
          annotator.publish document merged locations) { session with output }
      have alike := @outcome_resolve_congr annotator session { session with output } names rfl rfl
      rw [alike] at resolved
      refine ⟨between, tree, host, printed.trans (resolved.trans ?_)⟩
      change _ = match (annotator.resolve names).outcome session >>=
          planFor path (Document.textOf bytes) with
        | .ok plan => (annotator.storePlan plan).result between
        | .error fault => (.error fault, between)
      cases (annotator.resolve names).outcome session with
      | error fault => rfl
      | ok locations => exact annotator.result_planFor (tree ▸ file) locations

end Annotator

structure Plan.About (plan : Plan) (path : String) (text : List Char)
    (entries : List (String × Location)) : Prop where
  locations : plan.locations = Locations.named entries
  names : Document.functionNames text = .ok (entries.map (.str ·.1))
  distinct : (entries.map (·.1)).Nodup
  sourced : ∀ entry ∈ entries, entry.2.Sourced
  merged : ∃ document, Document.load path text = .ok document ∧
    Merge.document plan.locations document = .ok plan.merged ∧
    kernelRelease document = .ok plan.release
  annotations : Annotation.ofLocations plan.locations = .ok plan.annotations

theorem Annotator.about_of_plan {annotator : Annotator} {session : Session} {path : String}
    {text : List Char} {plan : Plan} (h : annotator.plan session path text = .ok plan) :
    ∃ entries, plan.About path text entries := by
  obtain ⟨names, read, h⟩ := of_bind_ok h
  obtain ⟨locations, resolved, h⟩ := of_bind_ok h
  obtain ⟨document, loads, h⟩ := of_bind_ok h
  obtain ⟨merged, merges, h⟩ := of_bind_ok h
  obtain ⟨release, named, h⟩ := of_bind_ok h
  obtain ⟨annotations, annotated, h⟩ := of_bind_ok h
  cases h
  have distinct := Document.distinctNames_functionNames read
  rw [annotator.outcome_resolve] at resolved
  obtain ⟨_, -, resolved⟩ := of_bind_ok resolved
  obtain ⟨resolutions, batch, resolved⟩ := of_bind_ok resolved
  obtain ⟨_, -, located⟩ := of_bind_ok resolved
  rw [resolveAll_eq] at batch
  obtain ⟨_, -, batch⟩ := of_bind_ok batch
  obtain ⟨early, cut, batch⟩ := of_bind_ok batch
  cases batch
  cases located
  rw [locationsOf_within _ cut, distinct] at annotated merges ⊢
  have textual : ∀ name ∈ names, name.IsText := by
    intro name member
    obtain ⟨function, -⟩ := Annotation.of_ofLocations annotated (List.mem_map_of_mem member)
    rwa [locationWithin_function _ cut] at function
  obtain ⟨texts, rfl⟩ := exists_texts textual
  let locate := locationWithin annotator.settings (Root.of session.tree annotator.sourceRoot) early
  have entries_eq : (texts.map str).map (fun name => (name, locate name)) =
      Locations.named (texts.map fun text => (text, locate (.str text))) := by
    rw [Locations.named, List.map_map, List.map_map]
    rfl
  have keys : (texts.map fun text => (text, locate (.str text))).map (·.1) = texts := by
    rw [List.map_map]
    exact List.map_id texts
  refine ⟨texts.map fun text => (text, locate (.str text)), entries_eq, ?_, ?_, ?_,
    ⟨document, loads, merges, named⟩, annotated⟩
  · rw [read, List.map_map]
    rfl
  · rw [keys]
    exact nodup_of_distinctNames distinct
  · refine List.forall_mem_map.mpr fun text member => ?_
    obtain ⟨-, line, lastLine⟩ := Annotation.of_ofLocations annotated
      (List.mem_map_of_mem (List.mem_map_of_mem member))
    exact ⟨isText_locationWithin _ cut _, line, lastLine⟩

end Workflow

end CallTimeline
