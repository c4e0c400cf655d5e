import CallTimeline.Proofs.Archive.Database

namespace CallTimeline

open Json

namespace Source

structure Location.Sourced (location : Location) : Prop where
  text : location.text.IsText
  line : (Numeral.int location.line).IsShort
  lastLine : (Numeral.int location.lastLine).IsShort

def found (entries : List (String × Location)) : List (String × Location) :=
  entries.filter (·.2.isResolved)

theorem mem_found {entries : List (String × Location)} {entry : String × Location} :
    entry ∈ found entries ↔ entry ∈ entries ∧ entry.2.isResolved = true :=
  List.mem_filter

theorem found_inOrder_perm (entries : List (String × Location)) :
    (found (inOrder entries)).Perm (found entries) :=
  (inOrder_perm entries).filter _

theorem filter_named (entries : List (String × Location)) :
    (Locations.named entries).filter (·.2.isResolved) = Locations.named (found entries) :=
  List.filter_map ..

theorem integerText_of_isShort {value : Int} (short : (Numeral.int value).IsShort) :
    integerText value = .ok (toString value) :=
  if_neg (Nat.not_lt.mpr short)

theorem isShort_of_integerText {value : Int} {text : String} (written : integerText value = .ok text) :
    (Numeral.int value).IsShort := by
  unfold integerText at written
  split at written
  case isTrue => cases written
  case isFalse fits => exact Nat.not_lt.mp fits

end Source

open Source

theorem Annotation.of_ofLocation {location : Location} {note : Annotation}
    (h : ofLocation location = .ok note) :
    location.function.IsText ∧ (Numeral.int location.line).IsShort ∧
      (Numeral.int location.lastLine).IsShort := by
  unfold ofLocation at h
  split at h
  case h_1 text isText =>
    obtain ⟨_, -, h⟩ := of_bind_ok h
    obtain ⟨_, line, h⟩ := of_bind_ok h
    obtain ⟨_, lastLine, -⟩ := of_bind_ok h
    exact ⟨⟨text, isText⟩, isShort_of_integerText line, isShort_of_integerText lastLine⟩
  case h_2 => cases h

namespace Archive

/-! ## One source file -/

def placeLine (name : String) (location : Location) : String :=
  "// " ++ name ++ " from " ++ location.file.display ++ ":" ++ toString location.line ++ "\n"

def linesLine (location : Location) : String :=
  "// Function definition (lines " ++ toString location.line ++ "-" ++ toString location.lastLine ++
    ")\n\n"

/-- Two lines that tell where a source is from, an empty line and the source. -/
def sourceText (name : String) (location : Location) : String :=
  placeLine name location ++ linesLine location ++ location.text.display

theorem sourceParts_of_sourced {name : String} {location : Location} (sourced : location.Sourced) :
    sourceParts name location =
      [placeLine name location, linesLine location, location.text.display].map .ok := by
  obtain ⟨⟨text, text_eq⟩, line, lastLine⟩ := sourced
  rw [sourceParts, integerText_of_isShort line, integerText_of_isShort lastLine, text_eq]
  rfl

theorem getLast?_sourceFile (name : String) :
    (sourceFile name).toList.getLast? = some 'c' := by
  simp [sourceFile]

theorem isName_sourceFile (name : String) : Path.IsName (sourceFile name) := by
  have ending := getLast?_sourceFile name
  constructor
  case nonempty =>
    intro same
    rw [same] at ending
    cases ending
  case notHere =>
    intro same
    rw [same] at ending
    cases ending
  case notAbove =>
    intro same
    rw [same] at ending
    cases ending
  case whole =>
    have safe (c : Char) : (if isSafe c then c else '_') ≠ '/' := by
      split
      case isTrue safe =>
        rintro rfl
        revert safe
        decide
      case isFalse => decide
    simp [sourceFile, safe]

variable {archive : Archive} {session : Session} {directory : List String}

theorem result_writeParts (path : String) (texts : List String) (session : Session) :
    (writeParts path (texts.map .ok)).result session =
      (Work.store path (Text.Utf8.encode (String.join texts))).result session := by
  have all : (texts.map Except.ok : List (Except Fault String)).takeWhile (·.isOk) =
      texts.map .ok := by
    simp [List.takeWhile_eq_self_iff, Except.isOk, Except.toBool]
  have kept : (texts.map Except.ok : List (Except Fault String)).filterMap (·.toOption) = texts := by
    simp [List.filterMap_map, Except.toOption]
  rw [writeParts, all, kept, Work.result_bind]
  simp only [List.getElem?_length]
  obtain ⟨_ | _, after⟩ := (Work.store path (Text.Utf8.encode (String.join texts))).result session <;>
    rfl

section

variable {name : String} {location : Location} (sourced : location.Sourced)

include sourced

theorem result_writeSource_eq (session : Session) :
    (archive.writeSource (.str name, location)).result session =
      (do
        Work.store (archive.sourcePath name) (Text.Utf8.encode (sourceText name location))
        return archive.sourcePath name : Work String).result session := by
  have joined : String.join [placeLine name location, linesLine location, location.text.display] =
      sourceText name location := by
    simp [String.join, sourceText]
  rw [writeSource, sourceParts_of_sourced sourced, Work.result_bind, result_writeParts, joined,
    Work.result_bind]

theorem result_writeSource {tree : FileTree}
    (stores : session.tree.write (archive.sourcePath name)
      (Text.Utf8.encode (sourceText name location)) = .ok tree) :
    (archive.writeSource (.str name, location)).result session =
      (.ok (archive.sourcePath name), { session with tree }) := by
  rw [result_writeSource_eq sourced, Work.result_bind, Work.result_store stores]
  rfl

theorem result_writeSource_error
    (stuck : ∀ place, ¬ session.tree.Takes (archive.sourcePath name) place) :
    ∃ fault, (archive.writeSource (.str name, location)).result session =
      (.error fault, session) := by
  rw [result_writeSource_eq sourced, Work.result_bind]
  cases stores : session.tree.write (archive.sourcePath name)
      (Text.Utf8.encode (sourceText name location)) with
  | ok tree =>
      obtain ⟨place, takes, -⟩ := FileTree.write_eq_ok.mp stores
      exact absurd takes (stuck place)
  | error fault => exact ⟨fault, by rw [Work.result_store_error stores]⟩

end

/-! ## All of them -/

def SourcePlace (directory : List String) (sources : List (String × Location))
    (place : List String) : Prop :=
  ∃ source ∈ sources, directory ++ [sourceFile source.1] = place

theorem sourcePlace_cons {source : String × Location} {sources : List (String × Location)}
    {place : List String} (later : SourcePlace directory sources place) :
    SourcePlace directory (source :: sources) place := by
  obtain ⟨other, member, same⟩ := later
  exact ⟨other, List.mem_cons_of_mem source member, same⟩

/-- The files of some functions have been written one after the other: each holds the last source
that was written to it. -/
structure SourcesWritten (directory : List String) (sources : List (String × Location))
    (before after : FileTree) : Prop where
  files : FileTree.FilesWritten (SourcePlace directory sources) before after
  last : ∀ source ∈ sources, ∃ last ∈ sources,
    sourceFile last.1 = sourceFile source.1 ∧
    (∀ other ∈ sources, sourceFile other.1 = sourceFile source.1 → other.1 ≤ last.1) ∧
    after.HasFile (directory ++ [sourceFile source.1])
      (Text.Utf8.encode (sourceText last.1 last.2))

theorem sourcesWritten_nil (tree : FileTree) : SourcesWritten directory [] tree tree :=
  ⟨FileTree.filesWritten_refl _ tree, nofun⟩

theorem SourcesWritten.cons {source : String × Location} {sources : List (String × Location)}
    {before after : FileTree}
    (takes : before.Takes (archive.sourcePath source.1) (directory ++ [sourceFile source.1]))
    (rest : SourcesWritten directory sources (before.withFile (directory ++ [sourceFile source.1])
      (Text.Utf8.encode (sourceText source.1 source.2))) after)
    (first : ∀ other ∈ sources, source.1 < other.1) :
    SourcesWritten directory (source :: sources) before after where
  files := (takes.filesWritten _ ⟨source, List.mem_cons_self, rfl⟩).trans
    (rest.files.mono fun _ => sourcePlace_cons)
  last := by
    have later : ∀ other ∈ sources, ∃ last ∈ source :: sources,
        sourceFile last.1 = sourceFile other.1 ∧
        (∀ another ∈ source :: sources, sourceFile another.1 = sourceFile other.1 →
          another.1 ≤ last.1) ∧
        after.HasFile (directory ++ [sourceFile other.1])
          (Text.Utf8.encode (sourceText last.1 last.2)) := by
      intro other member
      obtain ⟨last, among, same, greatest, holds⟩ := rest.last other member
      refine ⟨last, List.mem_cons_of_mem source among, same, ?_, holds⟩
      exact List.forall_mem_cons.mpr ⟨fun _ => le_of_lt (first last among), greatest⟩
    refine List.forall_mem_cons.mpr ⟨?_, later⟩
    by_cases shared : ∃ other ∈ sources, sourceFile other.1 = sourceFile source.1
    · obtain ⟨other, member, same⟩ := shared
      rw [← same]
      exact later other member
    · push Not at shared
      refine ⟨source, List.mem_cons_self, rfl, ?_, ?_⟩
      · exact List.forall_mem_cons.mpr
          ⟨fun _ => le_rfl, fun other member same => absurd same (shared other member)⟩
      · refine (rest.files.elsewhere _ ?_ _).mpr (takes.hasFile _)
        rintro ⟨other, member, same⟩
        exact shared other member (List.singleton_inj.mp (List.append_cancel_left same))

theorem sources_written {sources : List (String × Location)}
    (sorted : (sources.map (·.1)).Pairwise (· < ·))
    (sourced : ∀ source ∈ sources, source.2.Sourced)
    (takes : ∀ source ∈ sources,
      session.tree.Takes (archive.sourcePath source.1) (directory ++ [sourceFile source.1])) :
    ∃ tree, ((Locations.named sources).mapM archive.writeSource).result session =
        (.ok (sources.map fun source => archive.sourcePath source.1), { session with tree }) ∧
      SourcesWritten directory sources session.tree tree := by
  induction sources generalizing session with
  | nil => exact ⟨session.tree, rfl, sourcesWritten_nil _⟩
  | cons source sources ih =>
      rw [List.map_cons, List.pairwise_cons] at sorted
      obtain ⟨first, later⟩ := sorted
      obtain ⟨here, sourced⟩ := List.forall_mem_cons.mp sourced
      obtain ⟨room, takes⟩ := List.forall_mem_cons.mp takes
      have writes := result_writeSource here (room.write _)
      obtain ⟨tree, rest, kept⟩ := @ih { session with tree := session.tree.withFile _ _ } later sourced
        fun other member => (FileTree.takes_written (room.fileWritten _) rfl).mpr (takes other member)
      refine ⟨tree, ?_, kept.cons room fun other member => first _ (List.mem_map_of_mem member)⟩
      rw [Locations.named_cons, Work.result_mapM_cons writes, rest]
      rfl

theorem sources_stuck {sources : List (String × Location)}
    (sourced : ∀ source ∈ sources, source.2.Sourced)
    (places : ∀ source ∈ sources, ∀ place,
      session.tree.Takes (archive.sourcePath source.1) place →
        place = directory ++ [sourceFile source.1])
    (stuck : ∃ source ∈ sources, ∀ place,
      ¬ session.tree.Takes (archive.sourcePath source.1) place) :
    ∃ fault tree, ((Locations.named sources).mapM archive.writeSource).result session =
        (.error fault, { session with tree }) ∧
      FileTree.FilesWritten (SourcePlace directory sources) session.tree tree := by
  induction sources generalizing session with
  | nil =>
      obtain ⟨_, member, -⟩ := stuck
      cases member
  | cons source sources ih =>
      obtain ⟨here, sourced⟩ := List.forall_mem_cons.mp sourced
      obtain ⟨place_eq, places⟩ := List.forall_mem_cons.mp places
      by_cases room : ∃ place, session.tree.Takes (archive.sourcePath source.1) place
      · obtain ⟨place, room⟩ := room
        obtain rfl := place_eq place room
        have written : FileTree.FilesWritten (SourcePlace directory (source :: sources)) session.tree
            _ :=
          room.filesWritten (Text.Utf8.encode (sourceText source.1 source.2))
            ⟨source, List.mem_cons_self, rfl⟩
        have stuck : ∃ other ∈ sources, ∀ place,
            ¬ session.tree.Takes (archive.sourcePath other.1) place := by
          obtain ⟨other, member, blocked⟩ := stuck
          obtain rfl | later := List.mem_cons.mp member
          · exact absurd room (blocked _)
          · exact ⟨other, later, blocked⟩
        have writes := result_writeSource here (room.write _)
        obtain ⟨fault, tree, rest, kept⟩ := @ih { session with tree := session.tree.withFile _ _ }
          sourced (fun other member place takes =>
            places other member place ((written.takes _ _).mp takes))
          (stuck.imp fun other blocked => ⟨blocked.1, fun place takes =>
            blocked.2 place ((written.takes _ _).mp takes)⟩)
        refine ⟨fault, tree, ?_, written.trans (kept.mono fun _ => sourcePlace_cons)⟩
        rw [Locations.named_cons, Work.result_mapM_cons writes, rest]
      · push Not at room
        obtain ⟨fault, fails⟩ := result_writeSource_error here room
        refine ⟨fault, session.tree, ?_, FileTree.filesWritten_refl _ _⟩
        rw [Locations.named_cons, List.mapM_cons, Work.result_bind, fails]

theorem result_writeSources (entries : List (String × Location)) :
    (archive.writeSources (Locations.named entries)).result session =
      ((Locations.named (found (inOrder entries))).mapM archive.writeSource).result session := by
  rw [writeSources, Work.result_lift_bind, Locations.sortByName_named]
  dsimp only
  rw [filter_named]

theorem of_result_writeParts {path : String} {parts : List (Except Fault String)} {after : Session}
    (h : (writeParts path parts).result session = (.ok (), after)) :
    FileTree.FilesWritten (session.tree.Leads [path]) session.tree after.tree := by
  obtain ⟨_, written, stores, h⟩ := Work.of_result_bind h
  have kept : after = written := by
    split at h
    case h_1 => cases h
    case h_2 =>
      cases h
      rfl
  subst kept
  exact FileTree.filesWritten_of_write (Work.of_result_store stores)

theorem of_result_writeSource {entry : Json × Location} {path : String} {after : Session}
    (h : (archive.writeSource entry).result session = (.ok path, after)) :
    (∃ name, archive.sourcePath name = path) ∧
      FileTree.FilesWritten (session.tree.Leads [path]) session.tree after.tree := by
  obtain ⟨name, location⟩ := entry
  cases name with
  | str name =>
      obtain ⟨_, written, writes, h⟩ := Work.of_result_bind h
      obtain ⟨path_eq, rfl⟩ := Prod.mk.inj h
      obtain rfl := Except.ok.inj path_eq
      exact ⟨⟨name, rfl⟩, of_result_writeParts writes⟩
  | _ =>
      obtain ⟨fails, -⟩ := Prod.mk.inj h
      cases fails

theorem of_result_mapM_writeSource {entries : Locations} {paths : List String} {after : Session}
    (h : (entries.mapM archive.writeSource).result session = (.ok paths, after)) :
    (∀ path ∈ paths, ∃ name, archive.sourcePath name = path) ∧
      FileTree.FilesWritten (session.tree.Leads paths) session.tree after.tree := by
  induction entries generalizing session paths with
  | nil =>
      cases h
      exact ⟨List.forall_mem_nil _, FileTree.filesWritten_refl _ _⟩
  | cons entry entries ih =>
      rw [List.mapM_cons] at h
      obtain ⟨path, between, first, h⟩ := Work.of_result_bind h
      obtain ⟨others, written, rest, h⟩ := Work.of_result_bind h
      cases h
      obtain ⟨named, here⟩ := of_result_writeSource first
      obtain ⟨named', elsewhere⟩ := ih rest
      exact ⟨List.forall_mem_cons.mpr ⟨named, named'⟩, here.append elsewhere⟩

theorem of_result_writeSources {locations : Locations} {paths : List String} {after : Session}
    (h : (archive.writeSources locations).result session = (.ok paths, after)) :
    (∀ path ∈ paths, ∃ name, archive.sourcePath name = path) ∧
      FileTree.FilesWritten (session.tree.Leads paths) session.tree after.tree := by
  rw [writeSources, Work.result_lift_bind] at h
  split at h
  case h_1 => exact of_result_mapM_writeSource h
  case h_2 => cases h

theorem name_eq_of_sourceText_eq {name name' : String} {location location' : Location}
    (file : sourceFile name = sourceFile name')
    (text : sourceText name location = sourceText name' location') : name = name' := by
  have same_length : name.toList.length = name'.toList.length := by
    have letters := congrArg (fun file => file.toList.length) file
    simpa [sourceFile] using letters
  have letters := congrArg String.toList text
  simp only [sourceText, placeLine, String.toList_append, List.append_assoc] at letters
  have names := (List.append_inj (List.append_cancel_left letters) same_length).1
  exact String.toList_inj.mp names

def HoldsSource (archive : Archive) (directory : List String) (tree : FileTree)
    (entry : String × Location) : Prop :=
  tree.HasFile (directory ++ [sourceFile entry.1])
      (Text.Utf8.encode (sourceText entry.1 entry.2)) ∧
    tree.read (archive.sourcePath entry.1) = .ok (Text.Utf8.encode (sourceText entry.1 entry.2))

section

variable {entries : List (String × Location)} (distinct : (entries.map (·.1)).Nodup)

include distinct

theorem SourcesWritten.holdsSource_iff {before after : FileTree} {entry : String × Location}
    (written : SourcesWritten directory (found (inOrder entries)) before after)
    (takes : before.Takes (archive.sourcePath entry.1) (directory ++ [sourceFile entry.1]))
    (member : entry ∈ found entries) :
    archive.HoldsSource directory after entry ↔
      ∀ other ∈ found entries, sourceFile other.1 = sourceFile entry.1 → other.1 ≤ entry.1 := by
  have perm := found_inOrder_perm entries
  obtain ⟨last, among, same, greatest, holds⟩ := written.last entry (perm.mem_iff.mpr member)
  constructor
  · rintro ⟨own, -⟩
    have text := Text.Utf8.encode_injective (own.unique holds)
    have name := name_eq_of_sourceText_eq same.symm text
    intro other among shared
    exact (greatest other (perm.mem_iff.mpr among) shared).trans_eq name.symm
  · intro latest
    have name : last.1 = entry.1 :=
      le_antisymm (latest last (perm.mem_iff.mp among) same)
        (greatest entry (perm.mem_iff.mpr member) rfl)
    obtain rfl : last = entry := List.inj_on_of_nodup_map distinct
      (mem_found.mp (perm.mem_iff.mp among)).1 (mem_found.mp member).1 name
    exact ⟨holds, ((written.files.takes ..).mpr takes).read holds⟩

theorem exists_writeSources (sourced : ∀ entry ∈ found entries, entry.2.Sourced)
    (takes : ∀ entry ∈ found entries,
      session.tree.Takes (archive.sourcePath entry.1) (directory ++ [sourceFile entry.1])) :
    ∃ tree, (archive.writeSources (Locations.named entries)).result session =
        (.ok ((found (inOrder entries)).map fun source => archive.sourcePath source.1),
          { session with tree }) ∧
      SourcesWritten directory (found (inOrder entries)) session.tree tree := by
  have perm := found_inOrder_perm entries
  have sorted : ((found (inOrder entries)).map (·.1)).Pairwise (· < ·) :=
    (inOrder_sorted distinct).sublist (List.filter_sublist.map _)
  rw [result_writeSources]
  exact sources_written sorted (fun source member => sourced source (perm.mem_iff.mp member))
    fun source member => takes source (perm.mem_iff.mp member)

/-- Each function that was found has a path of the archive, whose file is directly in its directory.
The file holds the source of the function unless the name of a later one differs from its name in
unsafe characters only; so every function has a file with its source if no two names do. -/
theorem writeSources_named (archive : Archive)
    (sourced : ∀ entry ∈ found entries, entry.2.Sourced)
    (takes : ∀ entry ∈ found entries,
      session.tree.Takes (archive.sourcePath entry.1) (directory ++ [sourceFile entry.1])) :
    ∃ paths tree,
      (archive.writeSources (Locations.named entries)).result session =
        (.ok paths, { session with tree }) ∧
      paths.Perm ((found entries).map fun entry => archive.sourcePath entry.1) ∧
      (∀ entry ∈ found entries, (archive.HoldsSource directory tree entry ↔
        ∀ other ∈ found entries, sourceFile other.1 = sourceFile entry.1 → other.1 ≤ entry.1)) ∧
      ((∀ entry ∈ found entries, archive.HoldsSource directory tree entry) ↔
        ∀ entry ∈ found entries, ∀ other ∈ found entries,
          sourceFile other.1 = sourceFile entry.1 → other.1 = entry.1) ∧
      ∀ place, ¬ SourcePlace directory (found entries) place →
        ∀ bytes, tree.HasFile place bytes ↔ session.tree.HasFile place bytes := by
  have perm := found_inOrder_perm entries
  obtain ⟨tree, writes, written⟩ := exists_writeSources distinct sourced takes
  have holds (entry : String × Location) (member : entry ∈ found entries) :=
    written.holdsSource_iff distinct (takes entry member) member
  refine ⟨_, tree, writes, perm.map _, holds, ?_, ?_⟩
  · constructor
    · intro all entry member other among same
      exact le_antisymm ((holds entry member).mp (all entry member) other among same)
        ((holds other among).mp (all other among) entry member same.symm)
    · intro apart entry member
      exact (holds entry member).mpr fun other among same =>
        le_of_eq (apart entry member other among same)
  · intro place apart
    refine written.files.elsewhere place ?_
    rintro ⟨source, member, same⟩
    exact apart ⟨source, perm.mem_iff.mp member, same⟩

end

def foundFunction (name body : String) : String × Location :=
  (name, {
    function := .str name
    file := .str "net/a.c"
    line := 1
    text := .str body
    lineCount := 1
    candidates := []
    status := .resolved
    bodyStatus := .complete })

theorem sourced_foundFunction (name body : String) : (foundFunction name body).2.Sourced :=
  ⟨⟨body, rfl⟩, (by decide : (Numeral.int 1).IsShort), (by decide : (Numeral.int 1).IsShort)⟩

theorem emptySession_takes {function file : String} (file_eq : sourceFile function = file)
    (path : workingArchive.sourcePath function = file)
    (located : emptySession.tree.locate true file = .ok (.free [] file)) :
    emptySession.tree.Takes (workingArchive.sourcePath function) ([] ++ [sourceFile function]) := by
  rw [path, file_eq]
  exact ⟨_, located, rfl, trivial⟩

theorem writeSources_named_sample :
    let first := foundFunction "f.0" "int f(void) \x7b \x7d\n"
    let second := foundFunction "g" "int g(void) \x7b \x7d\n"
    let missing := ("h", Location.placeholder (.str "h") .unresolved)
    ∃ paths tree,
      (workingArchive.writeSources (Locations.named [first, missing, second])).result emptySession =
        (.ok paths, { emptySession with tree }) ∧
      paths.Perm ["f.0.c", "g.c"] ∧
      workingArchive.HoldsSource [] tree first ∧ workingArchive.HoldsSource [] tree second := by
  intro first second missing
  have file : sourceFile "f.0" = "f.0.c" := by decide +kernel
  have file' : sourceFile "g" = "g.c" := by decide +kernel
  have path : workingArchive.sourcePath "f.0" = "f.0.c" := by decide +kernel
  have path' : workingArchive.sourcePath "g" = "g.c" := by decide +kernel
  have found_eq : found [first, missing, second] = [first, second] := rfl
  have sourced : ∀ entry ∈ found [first, missing, second], entry.2.Sourced := by
    rw [found_eq]
    simp only [List.forall_mem_cons]
    exact ⟨sourced_foundFunction .., sourced_foundFunction .., List.forall_mem_nil _⟩
  have takes : ∀ entry ∈ found [first, missing, second], emptySession.tree.Takes
      (workingArchive.sourcePath entry.1) ([] ++ [sourceFile entry.1]) := by
    rw [found_eq]
    simp only [List.forall_mem_cons]
    refine ⟨emptySession_takes file path ?_, emptySession_takes file' path' ?_,
      List.forall_mem_nil _⟩
    · exact emptySession_locate ⟨by cbv, by decide, by decide⟩ (by decide +kernel) (by decide)
        (by decide) (by decide)
    · exact emptySession_locate ⟨by cbv, by decide, by decide⟩ (by decide +kernel) (by decide)
        (by decide) (by decide)
  obtain ⟨paths, tree, writes, perm, -, all, -⟩ := writeSources_named (by decide) workingArchive
    sourced takes
  rw [found_eq] at perm all
  have apart : ∀ entry ∈ [first, second], ∀ other ∈ [first, second],
      sourceFile other.1 = sourceFile entry.1 → other.1 = entry.1 := by
    simp [first, second, foundFunction, file, file']
  obtain ⟨holds, holds'⟩ := List.forall_mem_cons.mp (all.mpr apart)
  simp only [List.map_cons, List.map_nil, first, second, foundFunction, path, path'] at perm
  exact ⟨paths, tree, writes, perm, holds, holds' _ (List.mem_singleton.mpr rfl)⟩

def clashingSources : List (String × Location) :=
  [foundFunction "f 0" "int f(void) \x7b \x7d\n", foundFunction "f_0" "int g(void) \x7b \x7d\n"]

theorem writeSources_clash :
    (clashingSources.map (·.1)).Nodup ∧ found clashingSources = clashingSources ∧
    (∀ entry ∈ clashingSources, entry.2.Sourced ∧ emptySession.tree.Takes
      (workingArchive.sourcePath entry.1) ([] ++ [sourceFile entry.1])) ∧
    ∃ tree,
      (workingArchive.writeSources (Locations.named clashingSources)).result emptySession =
        (.ok ["f_0.c", "f_0.c"], { emptySession with tree }) ∧
      ¬ ∀ entry ∈ clashingSources, workingArchive.HoldsSource [] tree entry := by
  have file : sourceFile "f 0" = "f_0.c" := by decide +kernel
  have file' : sourceFile "f_0" = "f_0.c" := by decide +kernel
  have path : workingArchive.sourcePath "f 0" = "f_0.c" := by decide +kernel
  have path' : workingArchive.sourcePath "f_0" = "f_0.c" := by decide +kernel
  have located : emptySession.tree.locate true "f_0.c" = .ok (.free [] "f_0.c") :=
    emptySession_locate ⟨by cbv, by decide, by decide⟩ (by decide +kernel) (by decide) (by decide)
      (by decide)
  have distinct : (clashingSources.map (·.1)).Nodup := by decide
  have ready : ∀ entry ∈ clashingSources, entry.2.Sourced ∧ emptySession.tree.Takes
      (workingArchive.sourcePath entry.1) ([] ++ [sourceFile entry.1]) := by
    simp only [clashingSources, List.forall_mem_cons]
    exact ⟨⟨sourced_foundFunction .., emptySession_takes file path located⟩,
      ⟨sourced_foundFunction .., emptySession_takes file' path' located⟩, List.forall_mem_nil _⟩
  have sorted : (clashingSources.map (·.1)).Pairwise (· < ·) := by decide
  have found_eq : found clashingSources = clashingSources := rfl
  have inOrder_eq : inOrder clashingSources = clashingSources :=
    List.mergeSort_of_pairwise (by decide)
  obtain ⟨tree, writes, written⟩ := @sources_written workingArchive emptySession [] _ sorted
    (fun source member => (ready source member).1) (fun source member => (ready source member).2)
  refine ⟨distinct, found_eq, ready, tree, ?_, fun all => ?_⟩
  · rw [result_writeSources, inOrder_eq, found_eq, writes]
    simp [clashingSources, foundFunction, path, path']
  · let first := foundFunction "f 0" "int f(void) \x7b \x7d\n"
    have member : first ∈ clashingSources := List.mem_cons_self
    have own := (@SourcesWritten.holdsSource_iff _ _ _ distinct _ _ first
      (by rwa [inOrder_eq, found_eq]) (ready first member).2 member).mp (all first member)
    exact absurd (own (foundFunction "f_0" _) (List.mem_cons_of_mem _ List.mem_cons_self) (file'.trans file.symm))
      (by decide)

end Archive

end CallTimeline
