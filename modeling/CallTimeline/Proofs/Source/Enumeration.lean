import CallTimeline.Proofs.Source.Walk
import Mathlib

/-!
# The files that a search goes through

A position in a search is a search directory and the names below it. Of the positions at which one
real file stands the search takes the first, and it takes the positions in their order
(`Root.files_first_of_each`). So what it goes through is determined by what stands in the tree, and
not by the order in which directories list their entries.
-/

namespace CallTimeline.Source

structure Position where
  index : Nat
  names : List String

/-- The order of a search: the search directories as they are set, each in the order of a walk. -/
def Position.Before (position position' : Position) : Prop :=
  position.index < position'.index ∨
    position.index = position'.index ∧ Earlier position.names position'.names

theorem Position.Before.asymm {position position' : Position} (before : position.Before position') :
    ¬position'.Before position := by
  rintro (less' | ⟨same', earlier'⟩)
  · rcases before with less | ⟨same, -⟩ <;> omega
  · rcases before with less | ⟨-, earlier⟩
    · omega
    · exact earlier.asymm earlier'

def Root.sourceFile (root : Root) (directory : String) (place names : List String) : SourceFile :=
  let path := Path.join (Path.join root.path directory) ("/".intercalate names)
  { path
    relative := Path.relative path root.path
    real := root.tree.realPlace (place ++ names) }

/-- At the position stands a source file: its search directory is there, and the names lead from it
through directories to what is no directory and has one of the extensions. -/
inductive Root.Offers (root : Root) (settings : Settings) : Position → SourceFile → Prop where
  | intro {index : Nat} {directory : String} {place names : List String}
      {entries : List (String × Node)} (set : settings.searchDirs[index]? = some directory)
      (located : root.tree.locate true (Path.join root.path directory) = .ok (.found place))
      (inside : root.tree.root.at? place = some (.dir entries))
      (reached : Reaches root.tree place (.dir entries) names)
      (source : hasExtension settings.extensions (names.getLast?.getD "") = true) :
      Offers root settings { index, names } (root.sourceFile directory place names)

section

variable {root : Root} {settings : Settings}

def Root.walk (root : Root) (settings : Settings) (directory : String) :
    List (List String × SourceFile) :=
  match root.tree.locate true (Path.join root.path directory) with
  | .ok (.found place) =>
    match root.tree.root.at? place with
    | some node =>
      (((filesBelow root.tree place node).filter fun names =>
        hasExtension settings.extensions (names.getLast?.getD ""))).map fun names =>
          (names, root.sourceFile directory place names)
    | none => []
  | _ => []

theorem Root.map_snd_walk (directory : String) :
    (root.walk settings directory).map Prod.snd = root.filesIn settings directory := by
  unfold walk filesIn
  dsimp only
  rcases root.tree.locate true (Path.join root.path directory) with fault | place | free
  · rfl
  · dsimp only
    cases root.tree.root.at? place with
    | none => rfl
    | some node => exact List.map_map
  · rfl

theorem Root.mem_walk (distinct : root.tree.root.Distinct) {directory : String}
    {names : List String} {file : SourceFile} :
    (names, file) ∈ root.walk settings directory ↔
      ∃ place entries, root.tree.locate true (Path.join root.path directory) = .ok (.found place) ∧
        root.tree.root.at? place = some (.dir entries) ∧
        Reaches root.tree place (.dir entries) names ∧
        hasExtension settings.extensions (names.getLast?.getD "") = true ∧
        file = root.sourceFile directory place names := by
  unfold walk
  rcases root.tree.locate true (Path.join root.path directory) with fault | place | free
  · simp
  · dsimp only
    cases inside : root.tree.root.at? place with
    | none => simp [inside]
    | some node =>
        simp only [Except.ok.injEq, FileTree.Place.found.injEq,
          List.mem_map, List.mem_filter, mem_filesBelow (distinct.at? inside), Prod.mk.injEq]
        constructor
        · rintro ⟨names, ⟨⟨some, reached⟩, source⟩, rfl, rfl⟩
          obtain ⟨entries, rfl⟩ := reached.dir_iff.mp some
          exact ⟨place, entries, rfl, inside, reached, source, rfl⟩
        · rintro ⟨_, entries, rfl, here, reached, source, rfl⟩
          cases inside.symm.trans here
          exact ⟨names, ⟨⟨reached.dir_iff.mpr ⟨entries, rfl⟩, reached⟩, source⟩, rfl, rfl⟩
  · simp

theorem Root.pairwise_walk (distinct : root.tree.root.Distinct) (directory : String) :
    (root.walk settings directory).Pairwise fun offer offer' => Earlier offer.1 offer'.1 := by
  unfold walk
  split
  case h_1 place _ =>
    split
    case h_1 node inside =>
      exact List.pairwise_map.mpr ((pairwise_filesBelow (distinct.at? inside)).filter _)
    case h_2 => exact .nil
  case h_2 => exact .nil

/-- Every source file at every position. -/
def Root.offered (root : Root) (settings : Settings) : List (Position × SourceFile) :=
  settings.searchDirs.zipIdx.flatMap fun (directory, index) =>
    (root.walk settings directory).map fun (names, file) => ({ index, names }, file)

theorem Root.map_snd_offered :
    (root.offered settings).map Prod.snd =
      settings.searchDirs.flatMap (root.filesIn settings) := by
  have each (listed : String × Nat) :
      ((root.walk settings listed.1).map fun found =>
        (({ index := listed.2, names := found.1 } : Position), found.2)).map Prod.snd =
        root.filesIn settings listed.1 := by
    rw [List.map_map]
    exact root.map_snd_walk listed.1
  calc (root.offered settings).map Prod.snd
      = settings.searchDirs.zipIdx.flatMap fun listed => root.filesIn settings listed.1 := by
        rw [offered, List.map_flatMap]
        exact List.flatMap_congr fun listed _ => each listed
    _ = (settings.searchDirs.zipIdx.map Prod.fst).flatMap (root.filesIn settings) := by
        rw [List.flatMap_map]
    _ = settings.searchDirs.flatMap (root.filesIn settings) := by
        rw [List.zipIdx_map_fst]

theorem Root.mem_offered (distinct : root.tree.root.Distinct) {position : Position}
    {file : SourceFile} :
    (position, file) ∈ root.offered settings ↔ root.Offers settings position file := by
  rw [offered, List.mem_flatMap]
  constructor
  · rintro ⟨⟨directory, index⟩, set, member⟩
    obtain ⟨⟨names, found⟩, walked, same⟩ := List.mem_map.mp member
    cases same
    obtain ⟨place, entries, located, inside, reached, source, rfl⟩ := (mem_walk distinct).mp walked
    exact .intro (List.mem_zipIdx_iff_getElem?.mp set) located inside reached source
  · rintro @⟨index, directory, place, names, entries, set, located, inside, reached, source⟩
    refine ⟨(directory, index), List.mem_zipIdx_iff_getElem?.mpr set,
      List.mem_map.mpr ⟨(names, root.sourceFile directory place names), ?_, rfl⟩⟩
    exact (mem_walk distinct).mpr ⟨_, _, located, inside, reached, source, rfl⟩

theorem Root.pairwise_offered (distinct : root.tree.root.Distinct) :
    (root.offered settings).Pairwise fun offer offer' => offer.1.Before offer'.1 := by
  rw [offered, List.pairwise_flatMap]
  constructor
  · rintro ⟨directory, index⟩ -
    exact List.pairwise_map.mpr ((root.pairwise_walk distinct directory).imp fun earlier =>
      .inr ⟨rfl, earlier⟩)
  · have ascending : settings.searchDirs.zipIdx.Pairwise fun listed listed' =>
        listed.2 < listed'.2 := by
      rw [← List.pairwise_map, List.zipIdx_map_snd]
      exact List.pairwise_lt_range'
    refine ascending.imp fun less => ?_
    intro offer member offer' member'
    obtain ⟨_, -, rfl⟩ := List.mem_map.mp member
    obtain ⟨_, -, rfl⟩ := List.mem_map.mp member'
    exact .inl less

end

def firstOffered (seen : List (List String)) :
    List (Position × SourceFile) → List (Position × SourceFile)
  | [] => []
  | offer :: rest =>
    if seen.contains offer.2.real then firstOffered seen rest
    else offer :: firstOffered (offer.2.real :: seen) rest

section

variable {seen : List (List String)} {offered : List (Position × SourceFile)}
  {offer : Position × SourceFile}

theorem map_snd_firstOffered :
    (firstOffered seen offered).map Prod.snd = firstOfEach seen (offered.map Prod.snd) := by
  induction offered generalizing seen with
  | nil => rfl
  | cons first rest ih =>
      rw [firstOffered, List.map_cons, firstOfEach]
      split
      · exact ih
      · rw [List.map_cons, ih]

theorem firstOffered_sublist : (firstOffered seen offered).Sublist offered := by
  induction offered generalizing seen with
  | nil => exact .slnil
  | cons first rest ih =>
      rw [firstOffered]
      split
      · exact ih.cons first
      · exact ih.cons_cons first

theorem exists_mem_firstOffered (member : offer ∈ offered) (unseen : offer.2.real ∉ seen) :
    ∃ first ∈ firstOffered seen offered, first.2.real = offer.2.real := by
  induction offered generalizing seen with
  | nil => cases member
  | cons first rest ih =>
      rw [firstOffered]
      split
      case isTrue again =>
        rcases List.mem_cons.mp member with rfl | later
        · exact absurd (List.contains_iff_mem.mp again) unseen
        · exact ih later unseen
      case isFalse =>
        by_cases same : first.2.real = offer.2.real
        · exact ⟨first, List.mem_cons_self, same⟩
        · rcases List.mem_cons.mp member with rfl | later
          · exact absurd rfl same
          · have unseen : offer.2.real ∉ first.2.real :: seen :=
              List.not_mem_cons_of_ne_of_not_mem (Ne.symm same) unseen
            obtain ⟨taken, among, real_eq⟩ := ih later unseen
            exact ⟨taken, List.mem_cons_of_mem first among, real_eq⟩

theorem mem_firstOffered
    (sorted : offered.Pairwise fun offer offer' => offer.1.Before offer'.1) :
    offer ∈ firstOffered seen offered ↔
      offer ∈ offered ∧ offer.2.real ∉ seen ∧
        ∀ other ∈ offered, other.2.real = offer.2.real →
          other = offer ∨ offer.1.Before other.1 := by
  induction offered generalizing seen with
  | nil => simp [firstOffered]
  | cons first rest ih =>
      obtain ⟨least, sorted⟩ := List.pairwise_cons.mp sorted
      rw [firstOffered]
      split
      case isTrue again =>
        have again := List.contains_iff_mem.mp again
        rw [ih sorted, List.forall_mem_cons]
        constructor
        · rintro ⟨later, unseen, wins⟩
          exact ⟨List.mem_cons_of_mem first later, unseen, fun same => absurd (same ▸ again) unseen,
            wins⟩
        · rintro ⟨member, unseen, -, wins⟩
          rcases List.mem_cons.mp member with rfl | later
          · exact absurd again unseen
          · exact ⟨later, unseen, wins⟩
      case isFalse new =>
        have new := mt List.contains_iff_mem.mpr new
        rw [List.mem_cons, ih sorted, List.forall_mem_cons]
        constructor
        · rintro (rfl | ⟨later, unseen, wins⟩)
          · exact ⟨List.mem_cons_self, new, fun _ => .inl rfl,
              fun other member _ => .inr (least other member)⟩
          · obtain ⟨other, unseen⟩ := List.ne_and_not_mem_of_not_mem_cons unseen
            exact ⟨List.mem_cons_of_mem first later, unseen,
              fun same => absurd same.symm other, wins⟩
        · rintro ⟨member, unseen, beats, wins⟩
          rcases List.mem_cons.mp member with rfl | later
          · exact .inl rfl
          · refine .inr ⟨later, List.not_mem_cons_of_ne_of_not_mem (fun same => ?_) unseen, wins⟩
            -- The first of the list comes before all others.
            have before := least offer later
            rcases beats same.symm with rfl | before'
            · exact before.asymm before
            · exact before.asymm before'

end

section

variable {root : Root} {settings : Settings}

def Root.taken (root : Root) (settings : Settings) : List (Position × SourceFile) :=
  firstOffered [] (root.offered settings)

theorem Root.map_snd_taken :
    (root.taken settings).map Prod.snd = root.files settings := by
  rw [taken, map_snd_firstOffered, map_snd_offered, files]

theorem Root.pairwise_taken (distinct : root.tree.root.Distinct) :
    (root.taken settings).Pairwise fun offer offer' => offer.1.Before offer'.1 :=
  (pairwise_offered distinct).sublist firstOffered_sublist

theorem Root.nodup_taken (distinct : root.tree.root.Distinct) : (root.taken settings).Nodup :=
  (pairwise_taken distinct).imp fun before same => by
    subst same
    exact before.asymm before

theorem Root.mem_taken (distinct : root.tree.root.Distinct) {offer : Position × SourceFile} :
    offer ∈ root.taken settings ↔
      root.Offers settings offer.1 offer.2 ∧
        ∀ position file, root.Offers settings position file → file.real = offer.2.real →
          (position, file) = offer ∨ offer.1.Before position := by
  rw [taken, mem_firstOffered (pairwise_offered distinct)]
  simp only [Prod.forall, mem_offered distinct, List.not_mem_nil, not_false_eq_true, true_and]

theorem Root.nodup_files (distinct : root.tree.root.Distinct) :
    ((root.files settings).map SourceFile.real).Nodup := by
  rw [← map_snd_taken, List.map_map]
  refine List.pairwise_map.mpr ((pairwise_taken distinct).imp_of_mem ?_)
  intro offer offer' member member' before same
  rcases ((mem_taken distinct).mp member').2 _ _ ((mem_taken distinct).mp member).1 same with
    rfl | before'
  · exact before.asymm before
  · exact before.asymm before'

def Root.relist (root : Root) (listed : Node) : Root :=
  { root with tree := { root.tree with root := listed } }

theorem Root.Offers.alike {listed : Node} {position : Position} {file : SourceFile}
    (same : root.tree.root.Alike listed) (offers : root.Offers settings position file) :
    (root.relist listed).Offers settings position file := by
  obtain @⟨index, directory, place, names, entries, set, located, inside, reached, source⟩ := offers
  obtain ⟨entries', inside'⟩ := (same.dir_iff place).mpr ⟨entries, inside⟩
  have file_eq : root.sourceFile directory place names =
      (root.relist listed).sourceFile directory place names := by
    rw [sourceFile, sourceFile, relist, FileTree.realPlace_alike same]
  rw [file_eq]
  exact .intro set ((FileTree.locate_alike same true _).trans located) inside'
    (reached.alike same inside inside') source

theorem Root.taken_relist {listed : Node} (distinct : root.tree.root.Distinct)
    (relisted : root.tree.root.Relisted listed) :
    (root.relist listed).taken settings = root.taken settings := by
  have distinct' : (root.relist listed).tree.root.Distinct := relisted.distinct distinct
  have same := relisted.alike distinct
  have back : (root.relist listed).tree.root.Alike root.tree.root := same.symm
  have offers_iff (position : Position) (file : SourceFile) :
      (root.relist listed).Offers settings position file ↔ root.Offers settings position file :=
    ⟨@Offers.alike (root.relist listed) settings root.tree.root position file back,
      Offers.alike same⟩
  -- Both lists hold the same offers, and both go by position.
  refine List.Perm.eq_of_pairwise (fun _ _ _ _ before before' => absurd before' before.asymm)
    (pairwise_taken distinct') (pairwise_taken distinct) ?_
  refine (List.perm_ext_iff_of_nodup (nodup_taken distinct') (nodup_taken distinct)).mpr ?_
  intro offer
  simp only [mem_taken distinct', mem_taken distinct, offers_iff]

end

/-- In a tree whose directories list each name once, a search goes through the source files in the
order of their positions, and of those that are really one file it takes the first. So no real file
is taken twice and none is left out, and it does not matter how directories list their entries. -/
theorem Root.files_first_of_each {root : Root} (settings : Settings)
    (distinct : root.tree.root.Distinct) :
    ∃ taken : List (Position × SourceFile),
      root.files settings = taken.map Prod.snd ∧
      (taken.Pairwise fun offer offer' => offer.1.Before offer'.1) ∧
      (∀ offer, offer ∈ taken ↔ root.Offers settings offer.1 offer.2 ∧
        ∀ position file, root.Offers settings position file → file.real = offer.2.real →
          (position, file) = offer ∨ offer.1.Before position) ∧
      ((root.files settings).map SourceFile.real).Nodup ∧
      (∀ position file, root.Offers settings position file →
        ∃! source, source ∈ root.files settings ∧ source.real = file.real) ∧
      ∀ listed, root.tree.root.Relisted listed →
        (root.relist listed).files settings = root.files settings := by
  refine ⟨root.taken settings, map_snd_taken.symm, pairwise_taken distinct,
    fun _ => mem_taken distinct, nodup_files distinct, ?_, ?_⟩
  · intro position file offers
    obtain ⟨first, member, real_eq⟩ :=
      exists_mem_firstOffered ((mem_offered distinct).mpr offers) List.not_mem_nil
    have among : first.2 ∈ root.files settings := by
      rw [← map_snd_taken]
      exact List.mem_map_of_mem member
    refine ⟨first.2, ⟨among, real_eq⟩, fun other ⟨listed, same⟩ => ?_⟩
    exact List.inj_on_of_nodup_map (nodup_files distinct) listed among (same.trans real_eq.symm)
  · intro listed relisted
    rw [← map_snd_taken, ← map_snd_taken, taken_relist distinct relisted]

def aliasEntries : List (String × Node) :=
  [("b.c", .file []), ("a.c", .link "b.c")]

def aliasRoot : Root where
  tree :=
    { root := .dir [("net", .dir aliasEntries)]
      workingDirectory := [] }
  path := "/"

def aliasSettings : Settings where
  searchDirs := ["net", "lib", "net"]

theorem aliasRoot_files : aliasRoot.files aliasSettings =
    [{ path := "/net/a.c", relative := "net/a.c", real := ["net", "b.c"] }] := by
  have path : aliasRoot.path = "/" := rfl
  have base : Path.join "/" "net" = "/net" := by decide
  have place : aliasRoot.tree.locate true "/net" = .ok (.found ["net"]) := by cbv
  have node : aliasRoot.tree.root.at? ["net"] = some (.dir aliasEntries) := rfl
  have names : filesBelow aliasRoot.tree ["net"] (.dir aliasEntries) = [["a.c"], ["b.c"]] := by cbv
  have below : Path.join "/net" "a.c" = "/net/a.c" := by decide
  have below' : Path.join "/net" "b.c" = "/net/b.c" := by decide
  have relative : Path.relative "/net/a.c" "/" = "net/a.c" := by decide +kernel
  have relative' : Path.relative "/net/b.c" "/" = "net/b.c" := by decide +kernel
  have source : hasExtension aliasSettings.extensions "a.c" = true := by decide
  have source' : hasExtension aliasSettings.extensions "b.c" = true := by decide
  have real : aliasRoot.tree.realPlace ["net", "a.c"] = ["net", "b.c"] := by cbv
  have real' : aliasRoot.tree.realPlace ["net", "b.c"] = ["net", "b.c"] := by cbv
  have net : aliasRoot.filesIn aliasSettings "net" =
      [{ path := "/net/a.c", relative := "net/a.c", real := ["net", "b.c"] },
        { path := "/net/b.c", relative := "net/b.c", real := ["net", "b.c"] }] := by
    simp [Root.filesIn, path, base, place, node, names, below, below', relative, relative', source,
      source', real, real']
  have lib : aliasRoot.filesIn aliasSettings "lib" = [] := by
    have base : Path.join "/" "lib" = "/lib" := by decide
    have free : aliasRoot.tree.locate true "/lib" = .ok (.free [] "lib") := by cbv
    simp [Root.filesIn, path, base, free]
  have directories : aliasSettings.searchDirs = ["net", "lib", "net"] := rfl
  rw [Root.files, directories, List.flatMap_cons, List.flatMap_cons, List.flatMap_cons, net, lib]
  rfl

theorem Root.files_first_of_each_alias :
    aliasRoot.tree.root.Distinct ∧
      aliasRoot.tree.root.Relisted (.dir [("net", .dir aliasEntries.reverse)]) ∧
      aliasRoot.files aliasSettings =
        [{ path := "/net/a.c", relative := "net/a.c", real := ["net", "b.c"] }] ∧
      (aliasRoot.relist (.dir [("net", .dir aliasEntries.reverse)])).files aliasSettings =
        aliasRoot.files aliasSettings := by
  have distinct : aliasRoot.tree.root.Distinct := by
    refine .dir (List.nodup_singleton _) (List.forall_mem_singleton.mpr ?_)
    refine .dir (by decide) (List.forall_mem_cons.mpr ⟨.file [], ?_⟩)
    exact List.forall_mem_singleton.mpr (.link "b.c")
  have relisted : aliasRoot.tree.root.Relisted (.dir [("net", .dir aliasEntries.reverse)]) :=
    .inside [] [] "net" (.order (List.reverse_perm aliasEntries).symm)
  obtain ⟨-, -, -, -, -, -, same⟩ := Root.files_first_of_each aliasSettings distinct
  exact ⟨distinct, relisted, aliasRoot_files, same _ relisted⟩

end CallTimeline.Source
