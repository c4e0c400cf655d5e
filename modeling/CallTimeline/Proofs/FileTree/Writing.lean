import CallTimeline.Proofs.FileTree.Reading

/-!
# Files that were written

A file is written to the place that its path leads to (`write_eq_ok`). Writing it changes what stands
there and nothing else (`FileWritten`), so ways through the tree lead where they led
(`follow_written`), files can be written where they could be (`takes_written`), and the path is read
to the bytes that were written (`read_of_write`).
-/

namespace CallTimeline

namespace Node

theorem at?_dir (entries : List (String × Node)) (name : String) (rest : List String) :
    (dir entries).at? (name :: rest) = (entries.lookup name).bind (·.at? rest) := by
  rw [at?]
  cases entries.lookup name <;> rfl

theorem at?_append (node : Node) (above below : List String) :
    node.at? (above ++ below) = (node.at? above).bind (·.at? below) := by
  induction above generalizing node with
  | nil => rfl
  | cons name above ih =>
      cases node with
      | dir entries =>
          rw [List.cons_append, at?_dir, at?_dir, Option.bind_assoc]
          exact congrArg (Option.bind _) (funext fun node => ih node)
      | _ => rfl

theorem at?_concat {root : Node} {here : List String} {entries : List (String × Node)}
    (inside : root.at? here = some (dir entries)) (name : String) :
    root.at? (here ++ [name]) = entries.lookup name := by
  rw [at?_append, inside, Option.bind_some, at?_dir]
  cases entries.lookup name <;> rfl

theorem exists_above {root node : Node} {directory : List String} {name : String}
    (found : root.at? (directory ++ [name]) = some node) :
    ∃ above, root.at? directory = some above := by
  rw [at?_append] at found
  obtain ⟨above, found, -⟩ := Option.bind_eq_some_iff.mp found
  exact ⟨above, found⟩

theorem lookup_cons (name : String) (entry : String × Node) (entries : List (String × Node)) :
    (entry :: entries).lookup name =
      if name = entry.1 then some entry.2 else entries.lookup name := by
  rw [List.lookup_cons]
  by_cases same : name = entry.1
  · simp [same]
  · rw [beq_false_of_ne same, if_neg same]

theorem lookup_setEntry (name name' : String) (node : Node) (entries : List (String × Node)) :
    (setEntry name node entries).lookup name' =
      if name' = name then some node else entries.lookup name' := by
  induction entries with
  | nil => rw [setEntry, lookup_cons]
  | cons entry entries ih =>
      rw [setEntry, lookup_cons name' entry]
      split
      case isTrue here =>
        rw [lookup_cons, beq_iff_eq.mp here]
        split <;> rfl
      case isFalse other =>
        rw [lookup_cons, ih]
        split
        case isTrue same => rw [if_neg fun same' => other (beq_iff_eq.mpr (same.symm.trans same'))]
        case isFalse => rfl

def bare : Node → Node
  | file bytes => file bytes
  | link target => link target
  | dir _ => dir []

theorem map_bare_eq_dir {found : Option Node} :
    found.map bare = some (dir []) ↔ ∃ entries, found = some (dir entries) := by
  rcases found with _ | _ | _ | _ <;> simp [bare]

theorem map_bare_eq_file {found : Option Node} {bytes : List UInt8} :
    found.map bare = some (file bytes) ↔ found = some (file bytes) := by
  rcases found with _ | _ | _ | _ <;> simp [bare]

theorem map_bare_eq_link {found : Option Node} {target : String} :
    found.map bare = some (link target) ↔ found = some (link target) := by
  rcases found with _ | _ | _ | _ <;> simp [bare]

theorem put_of_lookup {entries : List (String × Node)} {name : String} {below : Node} (new : Node)
    (rest : List String) (found : entries.lookup name = some below) :
    (dir entries).put new (name :: rest) = dir (setEntry name (below.put new rest) entries) := by
  cases rest with
  | nil => rw [put, put]
  | cons => rw [put.eq_def]; simp only [found]

theorem put_of_lost {node new : Node} {name : String} {rest : List String}
    (lost : ∀ entries, node = dir entries → entries.lookup name = none ∧ rest ≠ []) :
    node.put new (name :: rest) = node := by
  cases node with
  | dir entries =>
      obtain ⟨none, ne⟩ := lost entries rfl
      obtain ⟨next, more, rfl⟩ := List.exists_cons_of_ne_nil ne
      rw [put.eq_def]
      simp only [none]
  | _ => cases rest <;> rfl

theorem at?_put_append {root : Node} (new : Node) {directory : List String} (name : String)
    {entries : List (String × Node)} (reached : root.at? directory = some (dir entries)) :
    (root.put new (directory ++ [name])).at? (directory ++ [name]) = some new := by
  induction directory generalizing root with
  | nil =>
      obtain rfl : root = dir entries := Option.some.inj reached
      rw [List.nil_append, put, at?_dir, lookup_setEntry, if_pos rfl]
      rfl
  | cons first rest ih =>
      cases root with
      | dir below =>
          rw [at?_dir] at reached
          obtain ⟨node, found, reached⟩ := Option.bind_eq_some_iff.mp reached
          rw [List.cons_append, put_of_lookup _ _ found, at?_dir, lookup_setEntry, if_pos rfl]
          exact ih reached
      | _ => cases reached

theorem at?_put {root old : Node} (new : Node) {place : List String}
    (reached : root.at? place = some old) : (root.put new place).at? place = some new := by
  obtain rfl | ⟨directory, name, rfl⟩ := place.eq_nil_or_concat'
  · rw [put]
    rfl
  · rw [at?_append] at reached
    obtain ⟨node, found, below⟩ := Option.bind_eq_some_iff.mp reached
    cases node with
    | dir entries => exact at?_put_append new name found
    | _ => cases below

def IsLeaf (node : Node) : Prop :=
  ∀ name rest, node.at? (name :: rest) = none

theorem isLeaf_file (bytes : List UInt8) : (file bytes).IsLeaf :=
  fun _ _ => rfl

theorem isLeaf_dir : (dir []).IsLeaf :=
  fun _ _ => rfl

theorem bare_at?_put_leaf {root new : Node} (leaf : new.IsLeaf) {place other : List String}
    (held : ∀ node, root.at? place = some node → node.IsLeaf) (ne : other ≠ place) :
    ((root.put new place).at? other).map bare = (root.at? other).map bare := by
  induction place generalizing root other with
  | nil =>
      cases other with
      | nil => exact absurd rfl ne
      | cons name rest => rw [put, leaf name rest, held root rfl name rest]
  | cons name rest ih =>
      by_cases lost : ∀ entries, root = dir entries → entries.lookup name = none ∧ rest ≠ []
      · rw [put_of_lost lost]
      push Not at lost
      obtain ⟨entries, rfl, inside⟩ := lost
      cases found : entries.lookup name with
      | some below =>
          rw [at?_dir, found] at held
          rw [put_of_lookup _ _ found]
          cases other with
          | nil => rfl
          | cons name' more =>
              rw [at?_dir, at?_dir, lookup_setEntry]
              split
              case isTrue same =>
                subst same
                rw [found]
                exact ih held fun same => ne (congrArg _ same)
              case isFalse => rfl
      | none =>
          obtain rfl := inside found
          rw [put]
          cases other with
          | nil => rfl
          | cons name' more =>
              rw [at?_dir, at?_dir, lookup_setEntry]
              split
              case isTrue same =>
                subst same
                cases more with
                | nil => exact absurd rfl ne
                | cons next more =>
                    rw [found]
                    exact congrArg (Option.map bare) (leaf next more)
              case isFalse => rfl

theorem bare_at?_put {root : Node} (bytes : List UInt8) {place other : List String}
    (held : ∀ node, root.at? place = some node → ∃ old, node = file old) (ne : other ≠ place) :
    ((root.put (file bytes) place).at? other).map bare = (root.at? other).map bare := by
  refine bare_at?_put_leaf (isLeaf_file bytes) (fun node stands => ?_) ne
  obtain ⟨old, rfl⟩ := held node stands
  exact isLeaf_file old

end Node

/-- `after` has a file at a place where `before` has one or nothing, and looks like it elsewhere. -/
structure FileWritten (before after : Node) (place : List String) (bytes : List UInt8) : Prop where
  held : ∀ node, before.at? place = some node → ∃ old, node = .file old
  holds : after.at? place = some (.file bytes)
  elsewhere : ∀ other ≠ place, (after.at? other).map Node.bare = (before.at? other).map Node.bare

theorem FileWritten.dir_iff {before after : Node} {place : List String} {bytes : List UInt8}
    (written : FileWritten before after place bytes) (here : List String) :
    (∃ entries, after.at? here = some (.dir entries)) ↔
      ∃ entries, before.at? here = some (.dir entries) := by
  by_cases same : here = place
  · subst same
    rw [written.holds]
    refine ⟨nofun, fun ⟨entries, inside⟩ => ?_⟩
    obtain ⟨old, file⟩ := written.held _ inside
    cases file
  · rw [← Node.map_bare_eq_dir, written.elsewhere here same, Node.map_bare_eq_dir]

theorem FileWritten.file_iff {before after : Node} {place other : List String}
    {bytes old : List UInt8} (written : FileWritten before after place bytes) (ne : other ≠ place) :
    after.at? other = some (.file old) ↔ before.at? other = some (.file old) := by
  rw [← Node.map_bare_eq_file, written.elsewhere other ne, Node.map_bare_eq_file]

section

variable {before after : Node} {place here : List String} {bytes : List UInt8}
  {entries : List (String × Node)} (written : FileWritten before after place bytes)
  (inside : before.at? here = some (.dir entries))

include written inside

theorem FileWritten.dir : ∃ entries, after.at? here = some (.dir entries) :=
  (written.dir_iff here).mpr ⟨entries, inside⟩

theorem FileWritten.lookup {entries' : List (String × Node)} (name : String)
    (inside' : after.at? here = some (.dir entries')) :
    if here ++ [name] = place then
      entries'.lookup name = some (.file bytes) ∧
        ∀ node, entries.lookup name = some node → ∃ old, node = .file old
    else (entries'.lookup name).map Node.bare = (entries.lookup name).map Node.bare := by
  rw [← Node.at?_concat inside, ← Node.at?_concat inside']
  split
  case isTrue same =>
    rw [same]
    exact ⟨written.holds, written.held⟩
  case isFalse other => exact written.elsewhere _ other

section

variable {name : String} {entries' : List (String × Node)}
  (inside' : after.at? here = some (.dir entries'))

include inside'

theorem FileWritten.lookup_link {target : String} (link : entries.lookup name = some (.link target)) :
    entries'.lookup name = some (.link target) := by
  have entry := written.lookup inside name inside'
  rw [link] at entry
  split at entry
  case isTrue =>
    obtain ⟨old, same⟩ := entry.2 _ rfl
    cases same
  case isFalse => exact Node.map_bare_eq_link.mp entry

theorem FileWritten.lookup_below {below : Node} (entry : entries.lookup name = some below)
    (notLink : ∀ target, below = .link target → False) :
    ∃ below', entries'.lookup name = some below' ∧ ∀ target, below' = .link target → False := by
  have entry' := written.lookup inside name inside'
  rw [entry] at entry'
  split at entry'
  case isTrue => exact ⟨_, entry'.1, by simp⟩
  case isFalse =>
    obtain ⟨below', found, same⟩ := Option.map_eq_some_iff.mp entry'
    refine ⟨below', found, ?_⟩
    rintro target rfl
    cases below with
    | link target => exact notLink target rfl
    | _ => cases same

end

end

namespace FileTree

def Place.names : Place → List String
  | .found place => place
  | .free directory name => directory ++ [name]

def Place.written (place : List String) (led : Place) : Place :=
  if led.names = place then .found place else led

theorem Place.written_found (place here : List String) :
    Place.written place (.found here) = .found here := by
  rw [written, names]
  split
  case isTrue same => rw [same]
  case isFalse => rfl

theorem Place.names_written (place : List String) (led : Place) :
    (Place.written place led).names = led.names := by
  rw [written]
  split
  case isTrue same => exact same.symm
  case isFalse => rfl

theorem follow_written_free {before after : Node} {place here : List String} {bytes : List UInt8}
    {entries : List (String × Node)} {name : String}
    (written : FileWritten before after place bytes) (node : before.at? here = some (.dir entries))
    (kept : ¬(name == "" || name == ".") = true) (notAbove : ¬(name == "..") = true)
    (short : ¬maxName < name.utf8ByteSize) (free : entries.lookup name = none)
    (followLast : Bool) (links : Nat) (rest : List String) :
    (follow after followLast links here (name :: rest)).toOption =
      (follow before followLast links here (name :: rest)).toOption.map (Place.written place) := by
  obtain ⟨entries', node'⟩ := written.dir node
  have entry := written.lookup node name node'
  cases rest with
  | nil =>
      rw [follow_free node kept notAbove short free]
      change _ = some (Place.written place (.free here name))
      rw [Place.written, Place.names]
      split at entry
      case isTrue same =>
        rw [follow_below node' kept notAbove short entry.1 (by simp), follow, if_pos same, same]
        rfl
      case isFalse other =>
        rw [free, Option.map_none, Option.map_eq_none_iff] at entry
        rw [follow_free node' kept notAbove short entry, if_neg other]
        rfl
  | cons next more =>
      have lost : (follow before followLast links here (name :: next :: more)).toOption = none := by
        rw [follow, node]
        simp only [kept, notAbove, short, free]
        rfl
      rw [lost, Option.map_none]
      split at entry
      case isTrue same =>
        -- The new file is no directory, so the way is lost in it.
        rw [follow_below node' kept notAbove short entry.1 (by simp), follow, same, written.holds]
        rfl
      case isFalse other =>
        rw [free, Option.map_none, Option.map_eq_none_iff] at entry
        rw [follow, node']
        simp only [kept, notAbove, short, entry]
        rfl

/-- The ways through a tree lead where they led, those to the place of a file to the file. -/
theorem follow_written {before after : Node} {place : List String} {bytes : List UInt8}
    (written : FileWritten before after place bytes) (followLast : Bool) (links : Nat)
    (here names : List String) :
    (follow after followLast links here names).toOption =
      (follow before followLast links here names).toOption.map (Place.written place) := by
  -- A directory stays a directory and a link a link, so both ways take the same steps until a name
  -- is free.
  induction links, here, names using follow.induct before followLast with
  | case1 links here =>
      rw [follow, follow]
      exact congrArg some (Place.written_found place here).symm
  | case2 links here name rest entries node idle ih =>
      obtain ⟨entries', node'⟩ := written.dir node
      rw [follow_idle node idle, follow_idle node' idle]
      exact ih
  | case3 links here name rest entries node kept above ih =>
      obtain ⟨entries', node'⟩ := written.dir node
      rw [follow_above node kept above, follow_above node' kept above]
      exact ih
  | case4 links here name rest entries node kept notAbove long =>
      obtain ⟨entries', node'⟩ := written.dir node
      rw [follow, follow, node, node']
      simp only [kept, notAbove, long, if_true]
      rfl
  | case5 links here name rest entries node kept notAbove short free
  | case6 links here name rest entries node kept notAbove short free =>
      exact follow_written_free written node kept notAbove short free followLast links rest
  | case7 links here name rest entries node kept notAbove short target link stays =>
      obtain ⟨entries', node'⟩ := written.dir node
      rw [follow_stays node kept notAbove short link stays,
        follow_stays node' kept notAbove short (written.lookup_link node node' link) stays]
      exact congrArg some (Place.written_found place _).symm
  | case10 here name rest entries node kept notAbove short target link last links some ih =>
      obtain ⟨entries', node'⟩ := written.dir node
      rw [follow_link node kept notAbove short link last some,
        follow_link node' kept notAbove short (written.lookup_link node node' link) last some]
      exact ih
  | case11 links here name rest entries node kept notAbove short below notLink entry ih =>
      obtain ⟨entries', node'⟩ := written.dir node
      obtain ⟨below', entry', notLink'⟩ := written.lookup_below node node' entry notLink
      rw [follow_below node kept notAbove short entry notLink,
        follow_below node' kept notAbove short entry' notLink']
      exact ih
  | case8 here name rest entries node kept notAbove short target link last =>
      obtain ⟨entries', node'⟩ := written.dir node
      rw [follow, follow, node, node']
      simp only [kept, notAbove, short, link, written.lookup_link node node' link, last]
      rfl
  | case9 here name rest entries node kept notAbove short target link last links empty =>
      obtain ⟨entries', node'⟩ := written.dir node
      rw [follow, follow, node, node']
      simp only [kept, notAbove, short, link, written.lookup_link node node' link, last, empty]
      rfl
  | case12 links here name rest node =>
      have node' (entries : List (String × Node)) (inside : after.at? here = some (.dir entries)) :
          False := by
        obtain ⟨entries', inside'⟩ := (written.dir_iff here).mp ⟨entries, inside⟩
        exact node entries' inside'
      rw [follow_lost node, follow_lost node']
      rfl

theorem free_of_follow {root : Node} {followLast : Bool} {links : Nat}
    {here names directory : List String} {name : String}
    (leads : follow root followLast links here names = .ok (.free directory name)) :
    ∃ entries, root.at? directory = some (.dir entries) ∧ entries.lookup name = none := by
  induction links, here, names using follow.induct root followLast with
  | case1 =>
      rw [follow] at leads
      cases leads
  | case2 links here name rest entries node idle ih =>
      rw [follow_idle node idle] at leads
      exact ih leads
  | case3 links here name rest entries node kept above ih =>
      rw [follow_above node kept above] at leads
      exact ih leads
  | case5 links here name rest entries node kept notAbove short free last =>
      obtain rfl : rest = [] := List.isEmpty_iff.mp last
      rw [follow_free node kept notAbove short free] at leads
      cases leads
      exact ⟨entries, node, free⟩
  | case10 here name rest entries node kept notAbove short target link last links some ih =>
      rw [follow_link node kept notAbove short link last some] at leads
      exact ih leads
  | case11 links here name rest entries node kept notAbove short below notLink entry ih =>
      rw [follow_below node kept notAbove short entry notLink] at leads
      exact ih leads
  | _ =>
      unfold follow at leads
      simp [*] at leads

theorem exists_of_follow {root : Node} {followLast : Bool} {links : Nat}
    {here names place : List String} (start : ∃ node, root.at? here = some node)
    (leads : follow root followLast links here names = .ok (.found place)) :
    ∃ node, root.at? place = some node := by
  induction links, here, names using follow.induct root followLast with
  | case1 =>
      rw [follow] at leads
      cases leads
      exact start
  | case2 links here name rest entries node idle ih =>
      rw [follow_idle node idle] at leads
      exact ih start leads
  | case3 links here name rest entries node kept above ih =>
      rw [follow_above node kept above] at leads
      refine ih ?_ leads
      obtain rfl | ⟨directory, last, rfl⟩ := here.eq_nil_or_concat'
      · exact start
      · rw [List.dropLast_concat]
        exact Node.exists_above node
  | case7 links here name rest entries node kept notAbove short target link stays =>
      rw [follow_stays node kept notAbove short link stays] at leads
      cases leads
      exact ⟨_, (Node.at?_concat node name).trans link⟩
  | case10 here name rest entries node kept notAbove short target link last links some ih =>
      rw [follow_link node kept notAbove short link last some] at leads
      refine ih ?_ leads
      split
      · exact ⟨root, rfl⟩
      · exact start
  | case11 links here name rest entries node kept notAbove short below notLink entry ih =>
      rw [follow_below node kept notAbove short entry notLink] at leads
      exact ih ⟨_, (Node.at?_concat node name).trans entry⟩ leads
  | case5 links here name rest entries node kept notAbove short free last =>
      obtain rfl : rest = [] := List.isEmpty_iff.mp last
      rw [follow_free node kept notAbove short free] at leads
      cases leads
  | _ =>
      unfold follow at leads
      simp [*] at leads

theorem exists_of_locate {tree : FileTree} {followLast : Bool} {path : String}
    {place : List String} (located : tree.locate followLast path = .ok (.found place)) :
    ∃ node, tree.root.at? place = some node := by
  obtain ⟨-, leads⟩ := locate_eq_ok.mp located
  obtain ⟨first, rest, segments⟩ := List.exists_cons_of_ne_nil (Path.segments_ne_nil path)
  rw [segments] at leads
  refine exists_of_follow ?_ leads
  by_contra none
  rw [follow_lost fun entries node => none ⟨_, node⟩] at leads
  cases leads

theorem fileWritten_of_free {root : Node} {directory : List String} {name : String}
    (bytes : List UInt8)
    (free : ∃ entries, root.at? directory = some (.dir entries) ∧ entries.lookup name = none) :
    FileWritten root (root.put (.file bytes) (directory ++ [name])) (directory ++ [name])
      bytes := by
  obtain ⟨entries, inside, none⟩ := free
  have held : ∀ node, root.at? (directory ++ [name]) = some node → ∃ old, node = .file old := by
    rw [Node.at?_concat inside, none]
    nofun
  exact ⟨held, Node.at?_put_append _ name inside, fun _ ne => Node.bare_at?_put bytes held ne⟩

theorem fileWritten_of_file {root : Node} {place : List String} {old : List UInt8}
    (bytes : List UInt8) (file : root.at? place = some (.file old)) :
    FileWritten root (root.put (.file bytes) place) place bytes := by
  have held : ∀ node, root.at? place = some node → ∃ old, node = .file old := by
    rw [file]
    rintro _ ⟨⟩
    exact ⟨old, rfl⟩
  exact ⟨held, Node.at?_put _ file, fun _ ne => Node.bare_at?_put bytes held ne⟩

def Writable (tree : FileTree) (path : String) : Prop :=
  ∃ bytes after, tree.write path bytes = .ok after

def Place.Takes (root : Node) : Place → Prop
  | .found place => ∃ old, root.at? place = some (.file old)
  | .free .. => True

/-- A path leads to a place where a file can be written. -/
def Takes (tree : FileTree) (path : String) (place : List String) : Prop :=
  ∃ led, tree.locate true path = .ok led ∧ led.names = place ∧ led.Takes tree.root

/-- One of the paths leads to a place where a file can be written. -/
def Leads (tree : FileTree) (paths : List String) (place : List String) : Prop :=
  ∃ path ∈ paths, tree.Takes path place

def HasFile (tree : FileTree) (place : List String) (bytes : List UInt8) : Prop :=
  tree.root.at? place = some (.file bytes)

def withFile (tree : FileTree) (place : List String) (bytes : List UInt8) : FileTree :=
  { tree with root := tree.root.put (.file bytes) place }

variable {tree : FileTree} {path : String} {place : List String} {bytes : List UInt8}

theorem HasFile.unique {bytes' : List UInt8} (file : tree.HasFile place bytes)
    (file' : tree.HasFile place bytes') : bytes = bytes' := by
  rw [HasFile, file] at file'
  cases file'
  rfl

theorem Takes.unique {place' : List String} (takes : tree.Takes path place)
    (takes' : tree.Takes path place') : place = place' := by
  obtain ⟨led, located, rfl, -⟩ := takes
  obtain ⟨led', located', rfl, -⟩ := takes'
  rw [located] at located'
  cases located'
  rfl

theorem Takes.write (takes : tree.Takes path place) (bytes : List UInt8) :
    tree.write path bytes = .ok (tree.withFile place bytes) := by
  obtain ⟨led, located, rfl, takes⟩ := takes
  rw [FileTree.write, located]
  cases led with
  | free directory name => rfl
  | found place =>
      obtain ⟨old, file⟩ := takes
      simp only [bind, Except.bind, file]
      rfl

theorem write_eq_ok {tree' : FileTree} :
    tree.write path bytes = .ok tree' ↔
      ∃ place, tree.Takes path place ∧ tree' = tree.withFile place bytes := by
  constructor
  · intro write
    obtain ⟨led, located, write⟩ := of_bind_ok write
    cases led with
    | free directory name =>
        cases write
        exact ⟨_, ⟨_, located, rfl, trivial⟩, rfl⟩
    | found place =>
        simp only at write
        split at write
        case h_1 old file =>
          cases write
          exact ⟨_, ⟨_, located, rfl, old, file⟩, rfl⟩
        case h_2 => cases write
  · rintro ⟨place, takes, rfl⟩
    exact takes.write bytes

theorem Writable.write (writable : tree.Writable path) (bytes : List UInt8) :
    ∃ after, tree.write path bytes = .ok after := by
  obtain ⟨other, after, write⟩ := writable
  obtain ⟨place, takes, -⟩ := write_eq_ok.mp write
  exact ⟨_, takes.write bytes⟩

theorem Takes.fileWritten (takes : tree.Takes path place) (bytes : List UInt8) :
    FileWritten tree.root (tree.withFile place bytes).root place bytes := by
  obtain ⟨led, located, rfl, takes⟩ := takes
  cases led with
  | free directory name =>
      exact fileWritten_of_free bytes (free_of_follow (locate_eq_ok.mp located).2)
  | found place =>
      obtain ⟨old, file⟩ := takes
      exact fileWritten_of_file bytes file

theorem Takes.hasFile (takes : tree.Takes path place) (bytes : List UInt8) :
    (tree.withFile place bytes).HasFile place bytes :=
  (takes.fileWritten bytes).holds

theorem Takes.read (takes : tree.Takes path place) (file : tree.HasFile place bytes) :
    tree.read path = .ok bytes := by
  obtain ⟨led, located, rfl, -⟩ := takes
  cases led with
  | free directory name =>
      obtain ⟨entries, inside, none⟩ := free_of_follow (locate_eq_ok.mp located).2
      rw [HasFile, Place.names, Node.at?_concat inside, none] at file
      cases file
  | found place => exact read_eq_ok.mpr ⟨place, located, file⟩

section

variable {after : FileTree} (written : FileWritten tree.root after.root place bytes)
  (same : after.workingDirectory = tree.workingDirectory)

include written same

theorem locate_written {followLast : Bool} {path : String} {led : Place} :
    after.locate followLast path = .ok led ↔
      ∃ before, tree.locate followLast path = .ok before ∧ before.written place = led := by
  have ways := follow_written written followLast maxLinks
    (if Path.isAbsolute path then [] else tree.workingDirectory) (Path.segments path)
  rw [locate_eq_ok, same, ← toOption_eq_some, ways, Option.map_eq_some_iff]
  simp only [locate_eq_ok, toOption_eq_some, and_assoc, exists_and_left]

theorem takes_written {path : String} {other : List String} :
    after.Takes path other ↔ tree.Takes path other := by
  constructor
  · rintro ⟨_, leads, rfl, takes⟩
    obtain ⟨led, located, rfl⟩ := (locate_written written same).mp leads
    refine ⟨led, located, (Place.names_written place led).symm, ?_⟩
    cases led with
    | free => trivial
    | found here =>
        rw [Place.written_found] at takes
        obtain ⟨old, file⟩ := takes
        by_cases same : here = place
        · obtain ⟨node, stands⟩ := exists_of_locate located
          obtain ⟨old, rfl⟩ := written.held node (same ▸ stands)
          exact ⟨old, stands⟩
        · exact ⟨old, (written.file_iff same).mp file⟩
  · rintro ⟨led, located, rfl, takes⟩
    refine ⟨_, (locate_written written same).mpr ⟨led, located, rfl⟩, Place.names_written place led,
      ?_⟩
    by_cases same : led.names = place
    · rw [Place.written, if_pos same]
      exact ⟨bytes, written.holds⟩
    · rw [Place.written, if_neg same]
      cases led with
      | free => trivial
      | found here =>
          obtain ⟨old, file⟩ := takes
          exact ⟨old, (written.file_iff same).mpr file⟩

end

theorem read_of_write {tree' : FileTree} (write : tree.write path bytes = .ok tree') :
    tree'.read path = .ok bytes := by
  obtain ⟨place, takes, rfl⟩ := write_eq_ok.mp write
  exact ((takes_written (takes.fileWritten bytes) rfl).mpr takes).read (takes.hasFile bytes)

/-! ## Several files -/

/-- Files have been written at some places: files can be written where they could be, and there are
the same files elsewhere. -/
structure FilesWritten (places : List String → Prop) (before after : FileTree) : Prop where
  takes : ∀ path place, after.Takes path place ↔ before.Takes path place
  elsewhere : ∀ place, ¬ places place → ∀ bytes,
    after.HasFile place bytes ↔ before.HasFile place bytes

section

variable {places places' : List String → Prop} {before between after : FileTree}

theorem filesWritten_refl (places : List String → Prop) (tree : FileTree) :
    FilesWritten places tree tree :=
  ⟨fun _ _ => Iff.rfl, fun _ _ _ => Iff.rfl⟩

theorem FilesWritten.mono (written : FilesWritten places before after)
    (within : ∀ place, places place → places' place) : FilesWritten places' before after :=
  ⟨written.takes, fun place outside =>
    written.elsewhere place fun inside => outside (within place inside)⟩

theorem FilesWritten.trans (first : FilesWritten places before between)
    (second : FilesWritten places between after) : FilesWritten places before after where
  takes path place := (second.takes path place).trans (first.takes path place)
  elsewhere place outside bytes :=
    (second.elsewhere place outside bytes).trans (first.elsewhere place outside bytes)

theorem Takes.filesWritten (takes : tree.Takes path place) (bytes : List UInt8)
    (inside : places place) : FilesWritten places tree (tree.withFile place bytes) where
  takes _ _ := takes_written (takes.fileWritten bytes) rfl
  elsewhere _ outside _ :=
    (takes.fileWritten bytes).file_iff fun same => outside (same ▸ inside)

theorem filesWritten_of_write (write : tree.write path bytes = .ok after) :
    FilesWritten (tree.Leads [path]) tree after := by
  obtain ⟨place, takes, rfl⟩ := write_eq_ok.mp write
  exact takes.filesWritten bytes ⟨path, List.mem_cons_self, takes⟩

theorem FilesWritten.leads_iff (written : FilesWritten places before after) (paths : List String)
    (place : List String) : after.Leads paths place ↔ before.Leads paths place :=
  exists_congr fun path => and_congr_right fun _ => written.takes path place

theorem FilesWritten.append {paths more : List String}
    (first : FilesWritten (before.Leads paths) before between)
    (second : FilesWritten (between.Leads more) between after) :
    FilesWritten (before.Leads (paths ++ more)) before after := by
  refine (first.mono ?_).trans (second.mono ?_)
  · rintro place ⟨path, member, takes⟩
    exact ⟨path, List.mem_append_left more member, takes⟩
  · rintro place ⟨path, member, takes⟩
    exact ⟨path, List.mem_append_right paths member, (first.takes path place).mp takes⟩

theorem FilesWritten.read (written : FilesWritten places before after)
    (takes : before.Takes path place) (outside : ¬ places place)
    (file : before.HasFile place bytes) : after.read path = .ok bytes :=
  ((written.takes path place).mpr takes).read ((written.elsewhere place outside bytes).mpr file)

end

end FileTree

end CallTimeline
