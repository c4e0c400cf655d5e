import CallTimeline.Proofs.FileTree.Writing

namespace CallTimeline

namespace Node

theorem lookup_filter_ne (name name' : String) (entries : List (String × Node)) :
    (entries.filter (·.1 != name)).lookup name' =
      if name' = name then none else entries.lookup name' := by
  induction entries with
  | nil => simp
  | cons entry entries ih =>
      rw [List.filter_cons, lookup_cons name' entry]
      by_cases here : entry.1 = name
      · rw [if_neg (by simp [here]), ih]
        split
        case isTrue => rfl
        case isFalse other => rw [if_neg fun same => other (same.trans here)]
      · rw [if_pos (by simp [here]), lookup_cons, ih]
        by_cases same : name' = entry.1
        · rw [if_pos same, if_pos same, if_neg fun gone => here (same ▸ gone)]
        · rw [if_neg same, if_neg same]

theorem erase_of_lookup {entries : List (String × Node)} {name : String} {below : Node}
    {rest : List String} (found : entries.lookup name = some below) (more : rest ≠ []) :
    (dir entries).erase (name :: rest) = dir (setEntry name (below.erase rest) entries) := by
  obtain ⟨next, more, rfl⟩ := List.exists_cons_of_ne_nil more
  rw [erase.eq_def]
  simp only [found]

theorem bare_at?_erase {root node : Node} {place : List String} (other : List String)
    (nonempty : place ≠ []) (stands : root.at? place = some node)
    (notDir : ∀ entries, node ≠ dir entries) :
    ((root.erase place).at? other).map bare =
      if other = place then none else (root.at? other).map bare := by
  induction place generalizing root other with
  | nil => exact absurd rfl nonempty
  | cons name rest ih =>
      cases root with
      | dir entries =>
          rw [at?_dir] at stands
          obtain ⟨below, found, inside⟩ := Option.bind_eq_some_iff.mp stands
          by_cases last : rest = []
          · subst last
            obtain rfl : below = node := Option.some.inj inside
            rw [erase]
            cases other with
            | nil => rfl
            | cons name' more =>
                rw [at?_dir, at?_dir, lookup_filter_ne]
                by_cases same : name' = name
                · subst same
                  rw [if_pos rfl, found]
                  cases more with
                  | nil => simp
                  | cons next more =>
                      cases below with
                      | dir below => exact absurd rfl (notDir below)
                      | _ => simp [at?]
                · simp [same]
          · rw [erase_of_lookup found last]
            cases other with
            | nil => rfl
            | cons name' more =>
                rw [at?_dir, at?_dir, lookup_setEntry]
                by_cases same : name' = name
                · subst same
                  rw [if_pos rfl, found]
                  simpa using ih more last inside
                · simp [same]
      | _ => cases stands

end Node

namespace FileTree

theorem follow_last {root : Node} {links : Nat} {here names place : List String}
    (leads : follow root true links here names = .ok (.found place)) :
    ∃ named, follow root false links here names = .ok (.found named) ∧
      (named = place ∨ ∃ target, root.at? named = some (.link target)) := by
  induction links, here, names using follow.induct root true with
  | case1 links here =>
      rw [follow] at leads ⊢
      cases leads
      exact ⟨_, rfl, .inl rfl⟩
  | case2 links here name rest entries node idle ih =>
      rw [follow_idle node idle] at leads ⊢
      exact ih leads
  | case3 links here name rest entries node kept above ih =>
      rw [follow_above node kept above] at leads ⊢
      exact ih leads
  | case5 links here name rest entries node kept notAbove short free last =>
      obtain rfl : rest = [] := List.isEmpty_iff.mp last
      rw [follow_free node kept notAbove short free] at leads
      cases leads
  | case10 here name rest entries node kept notAbove short target link last links some ih =>
      rw [follow_link node kept notAbove short link last some] at leads
      by_cases end_ : rest = []
      · subst end_
        refine ⟨here ++ [name], ?_, .inr ⟨target, (Node.at?_concat node name).trans link⟩⟩
        exact follow_stays node kept notAbove short link rfl
      · rw [follow_link node kept notAbove short link (by simp [end_]) some]
        exact ih leads
  | case11 links here name rest entries node kept notAbove short below notLink entry ih =>
      rw [follow_below node kept notAbove short entry notLink] at leads ⊢
      exact ih leads
  | case7 _ _ _ _ _ _ _ _ _ _ _ stays => simp at stays
  | _ =>
      unfold follow at leads
      simp [*] at leads

theorem nonempty_of_locate {tree : FileTree} {followLast : Bool} {path : String}
    {place : List String} {node : Node}
    (located : tree.locate followLast path = .ok (.found place))
    (stands : tree.root.at? place = some node) (notDir : ∀ entries, node ≠ .dir entries) :
    place ≠ [] := by
  rintro rfl
  obtain rfl : tree.root = node := Option.some.inj stands
  obtain ⟨-, leads⟩ := locate_eq_ok.mp located
  obtain ⟨first, rest, segments⟩ := List.exists_cons_of_ne_nil (Path.segments_ne_nil path)
  rw [segments, follow_lost] at leads
  · cases leads
  · intro entries inside
    generalize (if Path.isAbsolute path = true then [] else tree.workingDirectory) = here at inside
    cases root : tree.root with
    | dir entries => exact notDir entries root
    | _ =>
        rw [root] at inside
        cases here <;> cases inside

def Names (tree : FileTree) (path : String) (place : List String) : Prop :=
  ∃ led, tree.locate false path = .ok led ∧ led.names = place

section

variable {tree : FileTree} {path : String} {place : List String} {bytes : List UInt8}

theorem remove_of_file (located : tree.locate true path = .ok (.found place))
    (file : tree.HasFile place bytes) :
    ∃ named after, tree.locate false path = .ok (.found named) ∧
      (named = place ∨ ∃ target, tree.root.at? named = some (.link target)) ∧
      tree.remove path = .ok after ∧
      ∀ other old, after.HasFile other old ↔ other ≠ named ∧ tree.HasFile other old := by
  obtain ⟨usable, leads⟩ := locate_eq_ok.mp located
  obtain ⟨named, ends, either⟩ := follow_last leads
  have found : tree.locate false path = .ok (.found named) := locate_eq_ok.mpr ⟨usable, ends⟩
  obtain ⟨node, stands, notDir⟩ : ∃ node, tree.root.at? named = some node ∧
      ∀ entries, node ≠ .dir entries := by
    obtain rfl | ⟨target, link⟩ := either
    · exact ⟨_, file, nofun⟩
    · exact ⟨_, link, nofun⟩
  refine ⟨named, { tree with root := tree.root.erase named }, found, either, ?_,
    fun other old => ?_⟩
  · rw [remove, found]
    simp only [bind, Except.bind, stands]
    cases node with
    | dir entries => exact absurd rfl (notDir entries)
    | _ => rfl
  · have seen := Node.bare_at?_erase other (nonempty_of_locate found stands notDir) stands notDir
    rw [HasFile, ← Node.map_bare_eq_file, seen]
    split
    case isTrue same => simp [same]
    case isFalse ne => rw [Node.map_bare_eq_file, HasFile, and_iff_right ne]

theorem remove_of_write (takes : tree.Takes path place) (bytes : List UInt8) :
    ∃ after, (tree.withFile place bytes).remove path = .ok after ∧
      ∀ other old, after.HasFile other old ↔
        if other = place then ¬ tree.Names path place ∧ old = bytes else tree.HasFile other old := by
  have written := takes.fileWritten bytes
  have holds := takes.hasFile bytes
  obtain ⟨led, located, names, -⟩ := takes
  have leads : (tree.withFile place bytes).locate true path = .ok (.found place) :=
    (locate_written written rfl).mpr ⟨led, located, if_pos names⟩
  obtain ⟨named, after, ends, either, removes, kept⟩ := remove_of_file leads holds
  refine ⟨after, removes, fun other old => ?_⟩
  have names_iff : tree.Names path place ↔ named = place := by
    obtain ⟨before, found, same⟩ := (locate_written written rfl).mp ends
    have named_eq : before.names = named := by
      rw [← Place.names_written place before, same]
      rfl
    simp [Names, found, named_eq]
  rw [kept, names_iff]
  split
  case isTrue same =>
    subst same
    have bytes_eq : (tree.withFile other bytes).HasFile other old ↔ old = bytes :=
      ⟨fun file => file.unique holds, fun same => same ▸ holds⟩
    rw [bytes_eq, ne_comm]
  case isFalse ne =>
    have elsewhere : (tree.withFile place bytes).HasFile other old ↔ tree.HasFile other old :=
      written.file_iff ne
    rw [elsewhere, and_iff_right_iff_imp]
    rintro file rfl
    obtain same | ⟨target, link⟩ := either
    · exact ne same
    · cases (elsewhere.mpr file).symm.trans link

end

end FileTree

end CallTimeline
