import CallTimeline.Proofs.Archive.Sources

namespace CallTimeline

open Source Json

namespace Archive

structure HoldsDocument (archive : Archive) (directory : List String) (tree : FileTree)
    (name : String) (document : Json) : Prop where
  takes : tree.Takes (archive.directory.child name).text (directory ++ [name])
  file : tree.HasFile (directory ++ [name]) (Text.Utf8.encode document.indented)

def DocumentPlace (directory names place : List String) : Prop :=
  ∃ name ∈ names, directory ++ [name] = place

theorem not_documentPlace {directory names : List String} {name : String} (other : name ∉ names) :
    ¬ DocumentPlace directory names (directory ++ [name]) := by
  rintro ⟨name', member, same⟩
  obtain rfl := List.singleton_inj.mp (List.append_cancel_left same)
  exact other member

theorem documentPlace_mono {directory names names' place : List String} (subset : names ⊆ names')
    (inside : DocumentPlace directory names place) : DocumentPlace directory names' place := by
  obtain ⟨name, member, same⟩ := inside
  exact ⟨name, subset member, same⟩

variable {archive : Archive} {directory : List String} {session : Session} {tree after : FileTree}
  {name : String} {document : Json}

theorem HoldsDocument.read (holds : archive.HoldsDocument directory tree name document) :
    tree.read (archive.directory.child name).text = .ok (Text.Utf8.encode document.indented) :=
  holds.takes.read holds.file

theorem HoldsDocument.of_filesWritten {places : List String → Prop}
    (holds : archive.HoldsDocument directory tree name document)
    (written : FileTree.FilesWritten places tree after)
    (outside : ¬ places (directory ++ [name])) :
    archive.HoldsDocument directory after name document where
  takes := (written.takes _ _).mpr holds.takes
  file := (written.elsewhere _ outside _).mpr holds.file

/-- A document has been written. It is still there, unless a path that was written later leads to its
place. -/
def WroteDocument (archive : Archive) (later : List String) (tree : FileTree) (name : String)
    (document : Json) : Prop :=
  ∃ place, tree.Takes (archive.directory.child name).text place ∧
    (¬ tree.Leads later place → tree.HasFile place (Text.Utf8.encode document.indented))

theorem wroteDocument_of_result {stored : Stored} {after : Session}
    (h : (archive.writeDocument name document).result session = (.ok stored, after)) :
    archive.WroteDocument [] after.tree name document := by
  obtain ⟨place, takes, tree_eq⟩ := FileTree.write_eq_ok.mp (of_result_writeDocument h)
  rw [tree_eq]
  exact ⟨place, (FileTree.takes_written (takes.fileWritten _) rfl).mpr takes,
    fun _ => takes.hasFile _⟩

theorem WroteDocument.of_filesWritten {later more : List String}
    (wrote : archive.WroteDocument later tree name document)
    (written : FileTree.FilesWritten (tree.Leads more) tree after) :
    archive.WroteDocument (later ++ more) after name document := by
  obtain ⟨place, takes, file⟩ := wrote
  refine ⟨place, (written.takes _ _).mpr takes, fun apart => ?_⟩
  rw [written.leads_iff] at apart
  refine (written.elsewhere place (fun led => apart ?_) _).mpr (file fun led => apart ?_)
  · exact led.imp fun path => And.imp_left (List.mem_append_right later)
  · exact led.imp fun path => And.imp_left (List.mem_append_left more)

theorem WroteDocument.holdsDocument {later : List String}
    (wrote : archive.WroteDocument later tree name document)
    (takes : tree.Takes (archive.directory.child name).text (directory ++ [name]))
    (apart : ¬ tree.Leads later (directory ++ [name])) :
    archive.HoldsDocument directory tree name document := by
  obtain ⟨place, takes', file⟩ := wrote
  obtain rfl := takes.unique takes'
  exact ⟨takes, file apart⟩

theorem exists_writeDocument
    (takes : session.tree.Takes (archive.directory.child name).text (directory ++ [name]))
    (document : Json) :
    ∃ stored tree, (archive.writeDocument name document).result session =
        (.ok stored, { session with tree }) ∧ stored.name = name ∧
      archive.HoldsDocument directory tree name document ∧
      FileTree.FilesWritten (DocumentPlace directory [name]) session.tree tree := by
  have written : FileTree.FilesWritten (DocumentPlace directory [name]) session.tree _ :=
    takes.filesWritten (Text.Utf8.encode document.indented) ⟨name, List.mem_cons_self, rfl⟩
  exact ⟨_, _, result_writeDocument (takes.write _), rfl,
    ⟨(written.takes _ _).mpr takes, takes.hasFile _⟩, written⟩

def databaseOf (entries : List (String × Location)) : Json :=
  .obj ((inOrder entries).map fun entry => (entry.1, entry.2.toJson))

def annotationsOf (metadata : Fields) (annotations : List (Json × Annotation)) : Json :=
  .obj [("metadata", .obj metadata),
    ("annotations", .obj (annotations.map fun (name, note) => (name.keyText, note.toJson)))]

theorem result_writeDatabase (entries : List (String × Location)) (session : Session) :
    (archive.writeDatabase (Locations.named entries)).result session =
      (archive.writeDocument databaseFile (databaseOf entries)).result session := by
  rw [writeDatabase, Work.result_lift_bind, Locations.toJson_named]
  rfl

theorem result_writeTimeline_of_list {fields : Fields} {items : List Json}
    (timeline : fields.get? "timeline" = some (.arr items)) (session : Session) :
    (archive.writeTimeline name (.obj fields)).result session =
      (archive.writeDocument name (.obj fields)).result session := by
  rw [writeTimeline, Work.result_lift_bind]
  simp only [Json.fields, timeline]

theorem exists_writeAnnotations
    (takes : session.tree.Takes (archive.directory.child annotationFile).text
      (directory ++ [annotationFile]))
    (annotations : List (Json × Annotation)) (metadata : Fields) :
    ∃ stored tree, (archive.writeAnnotations annotations metadata).result session =
        (.ok stored, { session with tree }) ∧ stored.name = annotationFile ∧
      archive.HoldsDocument directory tree annotationFile
        (annotationsOf (metadata.set "functions_count" (.int annotations.length)) annotations) ∧
      FileTree.FilesWritten (DocumentPlace directory [annotationFile]) session.tree tree :=
  exists_writeDocument takes _

theorem sourceFile_ne_document (name : String) :
    sourceFile name ∉ [databaseFile, annotatedFile, annotationFile] := by
  intro member
  have letters := List.mem_map_of_mem (f := fun file : String => file.toList.getLast?) member
  rw [getLast?_sourceFile] at letters
  revert letters
  decide

end Archive

end CallTimeline
