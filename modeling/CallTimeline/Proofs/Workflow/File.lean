import CallTimeline.Proofs.FileTree.WorkingDirectory
import CallTimeline.Proofs.Timeline.File
import CallTimeline.Proofs.Workflow.Annotation

namespace CallTimeline.Workflow.Annotator

open Source Json Work

variable (annotator : Annotator)

theorem resolve_distinctNames {names : List Json} (text : ∀ name ∈ names, name.IsText)
    (session : Session) :
    (annotator.resolve (distinctNames names)).result session =
      (annotator.resolve names).result session := by
  have text' : ∀ name ∈ distinctNames names, name.IsText :=
    fun name member => text name (mem_of_mem_distinctNames member)
  have batch (root : Root) (processors : Nat) :
      resolveAll annotator.settings root processors (distinctNames names) =
        resolveAll annotator.settings root processors names := by
    rw [resolveAll, resolveAll, forM_checkName_of_text text, forM_checkName_of_text text',
      distinctNames_distinctNames]
  rw [resolve, resolve, result_bind, result_bind, result_forIn_lift, result_forIn_lift,
    forM_checkName_of_text text, forM_checkName_of_text text']
  simp only [batch, distinctNames_distinctNames]

theorem of_result_resolve {names : List Json} {session after : Session} {locations : Locations}
    (h : (annotator.resolve names).result session = (.ok locations, after)) :
    after.tree = session.tree ∧ after.locations = locations := by
  rw [resolve] at h
  obtain ⟨_, _, checks, h⟩ := of_result_bind h
  rw [result_forIn_lift] at checks
  obtain ⟨-, rfl⟩ := Prod.ext_iff.mp checks
  obtain ⟨output, h⟩ := (prints_print _).of_result_bind h
  rw [result_host_bind, result_tree_bind, result_lift_bind] at h
  split at h
  case h_2 => cases h
  case h_1 resolutions _ =>
    obtain ⟨output, h⟩ := (prints_reports resolutions).of_result_bind h
    rw [result_modify_bind, result_lift_bind] at h
    split at h
    case h_2 => cases h
    case h_1 =>
      obtain ⟨output, h⟩ := (prints_print _).of_result_bind h
      cases h
      exact ⟨rfl, rfl⟩

/-- Annotates the document that a file holds as a whole. -/
def whole (path : String) : Work Annotated := do
  let document ← Document.load path (Document.textOf (← contents path))
  let names ← documentNames document
  print (foundLine (distinctNames names) path)
  let merged ← annotator.document document
  annotator.publish document merged (← get).locations

section

variable {session : Session} {path : String} {bytes : List UInt8} {entries : List Fields}
  (file : session.tree.read path = .ok bytes)
  (holds : Document.HoldsTimeline (Document.textOf bytes) entries)
  (named : ∀ fields ∈ entries, Merge.nameOf fields = .null ∨ (Merge.nameOf fields).IsText)

include named in
theorem namesWell_of_named : ∀ fields ∈ entries, Document.NamesWell fields := by
  intro fields member truthy
  obtain null | ⟨text, named⟩ := named fields member
  · rw [null] at truthy
    cases truthy
  · rw [named]
    rfl

include named in
theorem isText_of_named : ∀ name ∈ Document.namesOf entries, name.IsText := by
  intro name member
  obtain ⟨among, truthy⟩ := List.mem_filter.mp member
  obtain ⟨fields, listed, rfl⟩ := List.mem_map.mp among
  refine (named fields listed).resolve_left fun null => ?_
  rw [null] at truthy
  cases truthy

include file in
theorem result_resolve_merge {document : Json} {names : List Json}
    (loads : Document.load path (Document.textOf bytes) = .ok document)
    (names_eq : documentNames document = .ok names) (text : ∀ name ∈ names, name.IsText) :
    (do let locations ← annotator.resolve (distinctNames names)
        let document ← Document.load path (Document.textOf (← contents path))
        let merged ← Merge.document locations document
        annotator.publish document merged locations : Work Annotated).result session =
      (do let merged ← annotator.document document
          annotator.publish document merged (← get).locations : Work Annotated).result session := by
  rw [result_bind, resolve_distinctNames annotator text, Annotator.document, result_bind,
    result_lift_bind, names_eq]
  simp only
  rw [result_bind]
  cases resolved : (annotator.resolve names).result session with
  | mk outcome after =>
      cases outcome with
      | error fault => rfl
      | ok locations =>
          obtain ⟨tree, kept⟩ := of_result_resolve annotator resolved
          have unchanged : after.tree.read path = .ok bytes := tree ▸ file
          simp only
          rw [result_contents_bind unchanged, result_lift_bind, loads, result_lift]
          simp only
          rw [result_lift_bind]
          cases Merge.document locations document with
          | error fault => rfl
          | ok merged =>
              simp only
              rw [result_get_bind, kept]

include file holds named in
theorem result_file :
    (annotator.file path).result session = (annotator.whole path).result session := by
  have text := isText_of_named named
  obtain ⟨fields, timeline, loads⟩ := holds.exists_load
  have names := documentNames_obj timeline
  rw [Annotator.file, whole, result_contents_bind file, result_contents_bind file, result_lift_bind,
    result_lift_bind, holds.functionNames_eq (namesWell_of_named named), loads]
  cases here : accepted (readFirst .narrow (Document.textOf bytes)) with
  | error refusal => rfl
  | ok =>
      have loaded : Document.load path (Document.textOf bytes) = .ok (.obj fields) := by
        rw [loads, here]
        rfl
      simp only [Except.mapError, Except.map]
      rw [result_lift_bind, names]
      simp only
      obtain ⟨output, printed⟩ :=
        prints_print (foundLine (distinctNames (Document.namesOf entries)) path) session
      have unchanged : ({ session with output } : Session).tree.read path = .ok bytes := file
      rw [result_bind, result_bind, printed]
      exact result_resolve_merge annotator unchanged loaded names text

end

def fileSession (bytes : List UInt8) : Session :=
  { sampleSession with
    tree := { root := .dir [("t.json", .file bytes)], workingDirectory := [] } }

theorem fileSession_read (bytes : List UInt8) :
    (fileSession bytes).tree.read "t.json" = .ok bytes :=
  FileTree.read_of_lookup rfl ⟨by decide, by decide, by decide, by decide⟩
    (String.contains_char_eq.trans (by decide)) (by decide +kernel) rfl

end CallTimeline.Workflow.Annotator
