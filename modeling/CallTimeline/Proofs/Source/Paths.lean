import CallTimeline.Proofs.Source.Walk

open CallTimeline.Path (IsName)

namespace CallTimeline

inductive Node.WellNamed : Node → Prop where
  | file (bytes : List UInt8) : WellNamed (.file bytes)
  | link (target : String) : WellNamed (.link target)
  | dir {entries : List (String × Node)} (names : ∀ entry ∈ entries, IsName entry.1)
      (below : ∀ entry ∈ entries, WellNamed entry.2) : WellNamed (.dir entries)

theorem Node.WellNamed.at? {node below : Node} (wellNamed : node.WellNamed) {place : List String}
    (found : node.at? place = some below) : below.WellNamed := by
  induction place generalizing node with
  | nil =>
      cases found
      exact wellNamed
  | cons name rest ih =>
      cases wellNamed with
      | file => cases found
      | link => cases found
      | @dir entries names inner =>
          rw [at?_dir] at found
          obtain ⟨next, entry, found⟩ := Option.bind_eq_some_iff.mp found
          have listed : (name, next) ∈ entries := by
            obtain ⟨before, after, rfl, -⟩ := List.lookup_eq_some_iff.mp entry
            simp
          exact ih (inner _ listed) found

namespace Source

theorem isName_of_mem_filesBelow {tree : FileTree} {place : List String} {node : Node}
    (wellNamed : node.WellNamed) :
    ∀ names ∈ filesBelow tree place node, ∀ name ∈ names, IsName name := by
  induction wellNamed generalizing place with
  | file | link =>
      rw [filesBelow.eq_2 _ _ _ (by simp)]
      exact List.forall_mem_nil _
  | @dir entries proper _ ih =>
      intro names member name among
      obtain ⟨entry, there, -, rfl⟩ | ⟨entry, there, rest, below, rfl⟩ :=
        mem_filesBelow_dir.mp member
      · obtain rfl := List.mem_singleton.mp among
        exact proper entry there
      · obtain rfl | later := List.mem_cons.mp among
        · exact proper entry there
        · exact ih entry there rest below name later

theorem mem_of_mem_firstOfEach {seen : List (List String)} {files : List SourceFile}
    {file : SourceFile} (member : file ∈ firstOfEach seen files) : file ∈ files := by
  induction files generalizing seen with
  | nil => cases member
  | cons first rest ih =>
      rw [firstOfEach] at member
      split at member
      · exact List.mem_cons_of_mem first (ih member)
      · obtain rfl | later := List.mem_cons.mp member
        · exact List.mem_cons_self
        · exact List.mem_cons_of_mem first (ih later)

theorem path_of_mem_files {root : Root} {settings : Settings} {file : SourceFile}
    (wellNamed : root.tree.root.WellNamed) (member : file ∈ root.files settings) :
    file.relative = Path.relative file.path root.path ∧
      ∃ directory ∈ settings.searchDirs, ∃ names, (∀ name ∈ names, IsName name) ∧
        file.path = Path.join (Path.join root.path directory) ("/".intercalate names) := by
  obtain ⟨directory, listed, member⟩ := List.mem_flatMap.mp (mem_of_mem_firstOfEach member)
  simp only [Root.filesIn] at member
  split at member
  case h_2 => cases member
  case h_1 place located =>
    split at member
    case h_2 => cases member
    case h_1 node found =>
      obtain ⟨names, among, rfl⟩ := List.mem_map.mp member
      have below := (List.mem_filter.mp among).1
      have proper := isName_of_mem_filesBelow (wellNamed.at? found) names below
      exact ⟨by simp only, directory, listed, names, proper, by simp only⟩

theorem workingPath_isAbsolute (tree : FileTree) : Path.isAbsolute tree.workingPath = true := by
  simp [FileTree.workingPath, Path.isAbsolute]

theorem Root.of_isAbsolute (tree : FileTree) (path : String) :
    Path.isAbsolute (Root.of tree path).path = true :=
  Path.isAbsolute_normalize (Path.isAbsolute_join (workingPath_isAbsolute tree))

theorem Root.of_upright (tree : FileTree) (path : String) :
    ".." ∉ Path.steps (Root.of tree path).path :=
  Path.upright_normalize (Path.isAbsolute_join (workingPath_isAbsolute tree))

theorem path_isAbsolute {tree : FileTree} {path : String} {settings : Settings} {file : SourceFile}
    (wellNamed : tree.root.WellNamed) (member : file ∈ (Root.of tree path).files settings) :
    Path.isAbsolute file.path = true := by
  obtain ⟨-, directory, -, names, -, path_eq⟩ := path_of_mem_files wellNamed member
  rw [path_eq]
  exact Path.isAbsolute_join (Path.isAbsolute_join (Root.of_isAbsolute tree path))

theorem path_upright {tree : FileTree} {path : String} {settings : Settings} {file : SourceFile}
    (wellNamed : tree.root.WellNamed)
    (inside : ∀ directory ∈ settings.searchDirs, ".." ∉ Path.segments directory)
    (member : file ∈ (Root.of tree path).files settings) : ".." ∉ Path.steps file.path := by
  obtain ⟨-, directory, listed, names, proper, path_eq⟩ := path_of_mem_files wellNamed member
  rw [path_eq]
  refine Path.upright_join (Path.upright_join (Root.of_upright tree path) ?_) ?_
  · exact mt Path.above_mem_steps.mp (inside directory listed)
  · rw [Path.steps_intercalate proper]
    exact fun above => (proper ".." above).notAbove rfl

theorem text_eq_of_relative_eq {tree : FileTree} {path : String} {settings : Settings}
    {file file' : SourceFile} {text text' : List Char} (wellNamed : tree.root.WellNamed)
    (inside : ∀ directory ∈ settings.searchDirs, ".." ∉ Path.segments directory)
    (member : file ∈ (Root.of tree path).files settings)
    (member' : file' ∈ (Root.of tree path).files settings)
    (same : file.relative = file'.relative) (loaded : Shelf.load tree file.path = some text)
    (loaded' : Shelf.load tree file'.path = some text') : text = text' := by
  have absolute := path_isAbsolute wellNamed member
  have absolute' := path_isAbsolute wellNamed member'
  refine Shelf.load_eq_of_steps_eq absolute absolute' ?_ loaded loaded'
  rw [(path_of_mem_files wellNamed member).1, (path_of_mem_files wellNamed member').1] at same
  exact Path.steps_eq_of_relative_eq absolute absolute' (path_upright wellNamed inside member)
    (path_upright wellNamed inside member') same

end Source

end CallTimeline
