import CallTimeline.Proofs.FileTree.Listings
import CallTimeline.Source.Files

/-!
# The walk through a directory

What is listed below a directory is exactly what can be reached through directories and is none
itself (`mem_filesBelow`). It is listed in one order: files by name, then what is below the
subdirectories by name (`pairwise_filesBelow`).
-/

namespace CallTimeline.Source

def isListed (tree : FileTree) (place : List String) : Node → Bool
  | .file _ => true
  | .link _ => !leadsToDirectory tree place
  | .dir _ => false

/-- The names lead through directories to what is listed as a file; `place` is where the node
stands. -/
def Reaches (tree : FileTree) (place : List String) (node : Node) (names : List String) : Prop :=
  ∃ below, node.at? names = some below ∧ isListed tree (place ++ names) below = true

inductive Earlier : List String → List String → Prop where
  | file {name name' : String} : name < name' → Earlier [name] [name']
  | fileFirst (name directory : String) {names : List String} :
      names ≠ [] → Earlier [name] (directory :: names)
  | directory {name name' : String} {names names' : List String} :
      name < name' → names ≠ [] → names' ≠ [] → Earlier (name :: names) (name' :: names')
  | inside (name : String) {names names' : List String} :
      Earlier names names' → Earlier (name :: names) (name :: names')

theorem Earlier.ne_nil {names names' : List String} (earlier : Earlier names names') :
    names ≠ [] ∧ names' ≠ [] := by
  cases earlier <;> exact ⟨List.cons_ne_nil _ _, List.cons_ne_nil _ _⟩

theorem Earlier.asymm {names names' : List String} (earlier : Earlier names names') :
    ¬Earlier names' names := by
  induction earlier with
  | file less =>
      intro later
      cases later with
      | file less' => exact String.lt_irrefl _ (String.lt_trans less less')
      | fileFirst _ _ some => exact some rfl
      | directory _ some => exact some rfl
      | inside _ later => exact later.ne_nil.1 rfl
  | fileFirst name directory some =>
      intro later
      cases later with
      | file => exact some rfl
      | fileFirst => exact some rfl
      | directory _ _ some' => exact some' rfl
      | inside _ later => exact later.ne_nil.2 rfl
  | directory less some some' =>
      intro later
      cases later with
      | file => exact some rfl
      | fileFirst => exact some' rfl
      | directory less' => exact String.lt_irrefl _ (String.lt_trans less less')
      | inside _ later => exact String.lt_irrefl _ less
  | inside name earlier ih =>
      intro later
      cases later with
      | file less => exact String.lt_irrefl _ less
      | fileFirst => exact earlier.ne_nil.2 rfl
      | directory less => exact String.lt_irrefl _ less
      | inside _ later => exact ih later

section

variable (tree : FileTree) (place : List String) (entries : List (String × Node))

def fileOf (entry : String × Node) : Option (String × Unit) :=
  if isListed tree (place ++ [entry.1]) entry.2 then some (entry.1, ()) else none

def directoryOf : String × Node → Option (String × List (List String))
  | (name, .dir entries) => some (name, filesBelow tree (place ++ [name]) (.dir entries))
  | _ => none

theorem splitEntries_eq : splitEntries tree place entries =
    (entries.filterMap (fileOf tree place), entries.filterMap (directoryOf tree place)) := by
  induction entries with
  | nil => rw [splitEntries]; rfl
  | cons entry rest ih =>
      obtain ⟨name, node⟩ := entry
      cases node with
      | file bytes => simp [splitEntries, ih, List.filterMap_cons, fileOf, directoryOf, isListed]
      | link target =>
          cases leads : leadsToDirectory tree (place ++ [name]) <;>
            simp [splitEntries, ih, List.filterMap_cons, fileOf, directoryOf, isListed, leads]
      | dir below => simp [splitEntries, ih, fileOf, directoryOf, isListed]

theorem filesBelow_dir : filesBelow tree place (.dir entries) =
    (sortNames (entries.filterMap (fileOf tree place))).map (fun file => [file.1]) ++
      (sortNames (entries.filterMap (directoryOf tree place))).flatMap
        fun (name, below) => below.map (name :: ·) := by
  rw [filesBelow, splitEntries_eq]

end

theorem mem_sortNames {α : Type} {entries : List (String × α)} {entry : String × α} :
    entry ∈ sortNames entries ↔ entry ∈ entries :=
  List.mem_mergeSort

theorem pairwise_sortNames {α : Type} {entries : List (String × α)}
    (names : (entries.map Prod.fst).Nodup) :
    (sortNames entries).Pairwise fun entry entry' => entry.1 < entry'.1 := by
  have sorted : (sortNames entries).Pairwise fun entry entry' =>
      (!decide (entry'.1 < entry.1)) = true := by
    apply List.pairwise_mergeSort
    · intro a b c
      simp only [Bool.not_eq_true', decide_eq_false_iff_not, String.not_lt]
      exact String.le_trans
    · intro a b
      simp only [Bool.or_eq_true, Bool.not_eq_true', decide_eq_false_iff_not, String.not_lt]
      exact String.le_total _ _
  have apart : (sortNames entries).Pairwise fun entry entry' => entry.1 ≠ entry'.1 := by
    rw [← List.pairwise_map]
    exact ((List.mergeSort_perm entries _).map Prod.fst).nodup_iff.mpr names
  refine sorted.imp₂ (fun entry entry' notLess ne => ?_) apart
  simp only [Bool.not_eq_true', decide_eq_false_iff_not, String.not_lt] at notLess
  exact String.not_le.mp fun less => ne (String.le_antisymm notLess less)

theorem map_fst_filterMap_sublist {α : Type} {entries : List (String × Node)}
    {f : String × Node → Option (String × α)}
    (named : ∀ entry found, f entry = some found → found.1 = entry.1) :
    ((entries.filterMap f).map Prod.fst).Sublist (entries.map Prod.fst) := by
  induction entries with
  | nil => exact .slnil
  | cons entry rest ih =>
      rw [List.filterMap_cons]
      split
      case h_1 => exact ih.cons _
      case h_2 found here =>
        rw [List.map_cons, List.map_cons, named entry found here]
        exact ih.cons_cons _

section

variable {tree : FileTree} {place names : List String} {entries : List (String × Node)}
  {entry : String × Node}

theorem fileOf_eq_some {file : String × Unit} :
    fileOf tree place entry = some file ↔
      isListed tree (place ++ [entry.1]) entry.2 = true ∧ (entry.1, ()) = file := by
  rw [fileOf, Option.ite_none_right_eq_some, Option.some.injEq]

theorem directoryOf_eq_some {directory : String × List (List String)} :
    directoryOf tree place entry = some directory ↔
      ∃ inner, entry.2 = .dir inner ∧
        (entry.1, filesBelow tree (place ++ [entry.1]) (.dir inner)) = directory := by
  obtain ⟨name, node⟩ := entry
  cases node <;> simp [directoryOf]

theorem mem_filesBelow_dir :
    names ∈ filesBelow tree place (.dir entries) ↔
      (∃ entry ∈ entries, isListed tree (place ++ [entry.1]) entry.2 = true ∧ names = [entry.1]) ∨
      ∃ entry ∈ entries, ∃ rest ∈ filesBelow tree (place ++ [entry.1]) entry.2,
        names = entry.1 :: rest := by
  rw [filesBelow_dir, List.mem_append]
  apply or_congr
  · simp only [List.mem_map, mem_sortNames, List.mem_filterMap, fileOf_eq_some]
    constructor
    · rintro ⟨_, ⟨entry, member, listed, rfl⟩, rfl⟩
      exact ⟨entry, member, listed, rfl⟩
    · rintro ⟨entry, member, listed, rfl⟩
      exact ⟨_, ⟨entry, member, listed, rfl⟩, rfl⟩
  · simp only [List.mem_flatMap, List.mem_map, mem_sortNames, List.mem_filterMap,
      directoryOf_eq_some]
    constructor
    · rintro ⟨_, ⟨⟨name, node⟩, member, inner, rfl, rfl⟩, rest, below, rfl⟩
      exact ⟨_, member, rest, below, rfl⟩
    · rintro ⟨⟨name, node⟩, member, rest, below, rfl⟩
      cases node with
      | dir inner => exact ⟨_, ⟨_, member, inner, rfl, rfl⟩, rest, below, rfl⟩
      | _ =>
          rw [filesBelow.eq_2 _ _ _ (by simp)] at below
          cases below

theorem reaches_nil {node : Node} :
    Reaches tree place node [] ↔ isListed tree place node = true := by
  simp [Reaches, Node.at?]

theorem reaches_cons {name : String} (unique : (entries.map Prod.fst).Nodup) :
    Reaches tree place (.dir entries) (name :: names) ↔
      ∃ node, (name, node) ∈ entries ∧ Reaches tree (place ++ [name]) node names := by
  simp only [Reaches, Node.at?_dir, Option.bind_eq_some_iff, Node.lookup_eq_some_iff_mem unique,
    List.append_cons place name names]
  constructor
  · rintro ⟨below, ⟨node, member, found⟩, listed⟩
    exact ⟨node, member, below, found, listed⟩
  · rintro ⟨node, member, below, found, listed⟩
    exact ⟨below, ⟨node, member, found⟩, listed⟩

theorem mem_filesBelow {node : Node} (distinct : node.Distinct) :
    names ∈ filesBelow tree place node ↔ names ≠ [] ∧ Reaches tree place node names := by
  induction distinct generalizing place names with
  | file | link =>
      rw [filesBelow.eq_2 _ _ _ (by simp)]
      cases names <;> simp [Reaches, Node.at?]
  | @dir entries unique _ ih =>
      rw [mem_filesBelow_dir]
      cases names with
      | nil => simp
      | cons name rest =>
          rw [reaches_cons unique, and_iff_right (List.cons_ne_nil name rest)]
          constructor
          · rintro (⟨entry, member, listed, here⟩ | ⟨entry, member, names, below, here⟩)
            · obtain ⟨rfl, rfl⟩ := List.cons.inj here
              exact ⟨entry.2, member, reaches_nil.mpr listed⟩
            · obtain ⟨rfl, rfl⟩ := List.cons.inj here
              exact ⟨entry.2, member, ((ih entry member).mp below).2⟩
          · rintro ⟨node, member, reached⟩
            -- The last name is that of a file, the names before it are those of directories.
            by_cases last : rest = []
            · subst last
              exact .inl ⟨(name, node), member, reaches_nil.mp reached, rfl⟩
            · exact .inr ⟨(name, node), member, rest, (ih _ member).mpr ⟨last, reached⟩, rfl⟩

theorem Reaches.dir_iff {node : Node} (reached : Reaches tree place node names) :
    names ≠ [] ↔ ∃ entries, node = .dir entries := by
  obtain ⟨below, found, listed⟩ := reached
  cases names with
  | nil =>
      cases found
      cases node with
      | dir => cases listed
      | _ => simp
  | cons name rest =>
      cases node with
      | dir entries => simp
      | _ => cases found

theorem nodup_files (unique : (entries.map Prod.fst).Nodup) :
    ((entries.filterMap (fileOf tree place)).map Prod.fst).Nodup :=
  unique.sublist (map_fst_filterMap_sublist fun _ _ found => by rw [← (fileOf_eq_some.mp found).2])

theorem nodup_directories (unique : (entries.map Prod.fst).Nodup) :
    ((entries.filterMap (directoryOf tree place)).map Prod.fst).Nodup := by
  refine unique.sublist (map_fst_filterMap_sublist fun entry directory found => ?_)
  obtain ⟨inner, -, rfl⟩ := directoryOf_eq_some.mp found
  rfl

theorem pairwise_filesBelow {node : Node} (distinct : node.Distinct) :
    (filesBelow tree place node).Pairwise Earlier := by
  induction distinct generalizing place with
  | file | link =>
      rw [filesBelow.eq_2 _ _ _ (by simp)]
      exact .nil
  | @dir entries unique below ih =>
      have directories : ∀ directory ∈ sortNames (entries.filterMap (directoryOf tree place)),
          directory.2.Pairwise Earlier ∧ ∀ names ∈ directory.2, names ≠ [] := by
        intro directory member
        obtain ⟨⟨name, node⟩, among, found⟩ := List.mem_filterMap.mp (mem_sortNames.mp member)
        obtain ⟨inner, rfl, rfl⟩ := directoryOf_eq_some.mp found
        exact ⟨ih _ among, fun names listed => ((mem_filesBelow (below _ among)).mp listed).1⟩
      rw [filesBelow_dir]
      refine List.pairwise_append.mpr ⟨?files, List.pairwise_flatMap.mpr ⟨?inside, ?apart⟩, ?first⟩
      case files =>
        exact List.pairwise_map.mpr ((pairwise_sortNames (nodup_files unique)).imp Earlier.file)
      case inside =>
        rintro ⟨name, listed⟩ member
        exact List.pairwise_map.mpr ((directories _ member).1.imp (.inside name))
      case apart =>
        refine (pairwise_sortNames (nodup_directories unique)).imp_of_mem
          fun {directory directory'} member member' less => ?_
        rintro _ listed _ listed'
        obtain ⟨names, here, rfl⟩ := List.mem_map.mp listed
        obtain ⟨names', here', rfl⟩ := List.mem_map.mp listed'
        exact .directory less ((directories _ member).2 names here)
          ((directories _ member').2 names' here')
      case first =>
        rintro _ file _ inside
        obtain ⟨entry, -, rfl⟩ := List.mem_map.mp file
        obtain ⟨directory, member, inside⟩ := List.mem_flatMap.mp inside
        obtain ⟨names, here, rfl⟩ := List.mem_map.mp inside
        exact .fileFirst _ _ ((directories _ member).2 names here)

end

section

variable {tree : FileTree} {listed : Node} (same : tree.root.Alike listed)

include same

theorem isListed_alike {place : List String} {node node' : Node}
    (bare_eq : node'.bare = node.bare) :
    isListed { tree with root := listed } place node' = isListed tree place node := by
  cases node <;> cases node' <;> cases bare_eq <;>
    simp only [isListed, leadsToDirectory, FileTree.isDirectory_alike same]

theorem Reaches.alike {place names : List String} {entries entries' : List (String × Node)}
    (inside : tree.root.at? place = some (.dir entries))
    (inside' : listed.at? place = some (.dir entries'))
    (reached : Reaches tree place (.dir entries) names) :
    Reaches { tree with root := listed } place (.dir entries') names := by
  obtain ⟨below, found, isFile⟩ := reached
  have stands := same (place ++ names)
  rw [Node.at?_append, Node.at?_append, inside, inside', Option.bind_some, Option.bind_some, found,
    Option.map_some, Option.map_eq_some_iff] at stands
  obtain ⟨below', found', bare_eq⟩ := stands
  exact ⟨below', found', (isListed_alike same bare_eq).trans isFile⟩

end

end CallTimeline.Source
