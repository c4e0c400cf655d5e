import CallTimeline.FileTree.RealPath
import CallTimeline.Proofs.FileTree.Writing

/-!
# Trees whose directories are listed in another order

A directory lists its entries in some order. Where it lists each name once, the order cannot be told
from what stands at the places of the tree (`Relisted.alike`), and ways, directories and real paths
depend on this alone (`follow_alike`, `isDirectory_alike`, `realPlace_alike`).
-/

namespace CallTimeline

namespace Node

inductive Distinct : Node → Prop where
  | file (bytes : List UInt8) : Distinct (.file bytes)
  | link (target : String) : Distinct (.link target)
  | dir {entries : List (String × Node)} (names : (entries.map Prod.fst).Nodup)
      (below : ∀ entry ∈ entries, Distinct entry.2) : Distinct (.dir entries)

inductive Relisted : Node → Node → Prop where
  | refl (node : Node) : Relisted node node
  | order {entries entries' : List (String × Node)} :
      entries.Perm entries' → Relisted (.dir entries) (.dir entries')
  | inside (before after : List (String × Node)) (name : String) {node node' : Node} :
      Relisted node node' →
        Relisted (.dir (before ++ (name, node) :: after)) (.dir (before ++ (name, node') :: after))
  | trans {first second third : Node} :
      Relisted first second → Relisted second third → Relisted first third

def Alike (root root' : Node) : Prop :=
  ∀ place, (root'.at? place).map bare = (root.at? place).map bare

theorem lookup_eq_some_iff_mem {entries : List (String × Node)} {name : String} {node : Node}
    (names : (entries.map Prod.fst).Nodup) :
    entries.lookup name = some node ↔ (name, node) ∈ entries := by
  induction entries with
  | nil => simp
  | cons entry rest ih =>
      obtain ⟨first, below⟩ := entry
      obtain ⟨unlisted, later⟩ := List.nodup_cons.mp names
      rw [lookup_cons, List.mem_cons, Prod.mk.injEq]
      split
      case isTrue same =>
        subst same
        have gone : (name, node) ∉ rest := fun member =>
          unlisted (List.mem_map.mpr ⟨(name, node), member, rfl⟩)
        simp [gone, eq_comm]
      case isFalse other => simp [other, ih later]

theorem Distinct.at? {root node : Node} (distinct : root.Distinct) {place : List String}
    (found : root.at? place = some node) : node.Distinct := by
  induction place generalizing root with
  | nil =>
      cases found
      exact distinct
  | cons name rest ih =>
      cases distinct with
      | file => cases found
      | link => cases found
      | dir names below =>
          rw [at?_dir] at found
          obtain ⟨next, entry, found⟩ := Option.bind_eq_some_iff.mp found
          exact ih (below _ ((lookup_eq_some_iff_mem names).mp entry)) found

theorem Relisted.distinct {root root' : Node} (relisted : root.Relisted root')
    (distinct : root.Distinct) : root'.Distinct := by
  induction relisted with
  | refl => exact distinct
  | order perm =>
      cases distinct with
      | dir names below =>
          exact .dir ((perm.map Prod.fst).nodup_iff.mp names) fun entry member =>
            below entry (perm.mem_iff.mpr member)
  | inside before after name _ ih =>
      cases distinct with
      | dir names below =>
          refine .dir (by simpa using names) fun entry member => ?_
          rcases List.mem_append.mp member with first | later
          · exact below entry (List.mem_append_left _ first)
          · rcases List.mem_cons.mp later with rfl | last
            · exact ih (below (name, _) (by simp))
            · exact below entry (by simp [last])
  | trans _ _ ih ih' => exact ih' (ih distinct)

theorem lookup_append_cons (before after : List (String × Node)) (name name' : String)
    (node : Node) :
    (before ++ (name, node) :: after).lookup name' =
      (before.lookup name').or (if name' = name then some node else after.lookup name') := by
  rw [List.lookup_append, lookup_cons]

theorem Relisted.alike {root root' : Node} (relisted : root.Relisted root')
    (distinct : root.Distinct) : root.Alike root' := by
  induction relisted with
  | refl => exact fun _ => rfl
  | order perm =>
      cases distinct with
      | dir names below =>
          have names' := (perm.map Prod.fst).nodup_iff.mp names
          rintro (_ | ⟨name, rest⟩)
          · rfl
          · rw [at?_dir, at?_dir]
            congr 2
            ext node
            rw [lookup_eq_some_iff_mem names', lookup_eq_some_iff_mem names, perm.mem_iff]
  | inside before after name _ ih =>
      cases distinct with
      | dir names below =>
          have same := ih (below (name, _) (by simp))
          rintro (_ | ⟨name', rest⟩)
          · rfl
          · rw [at?_dir, at?_dir, lookup_append_cons, lookup_append_cons]
            cases before.lookup name' with
            | some first => rfl
            | none =>
                simp only [Option.none_or]
                split
                case isTrue => exact same rest
                case isFalse => rfl
  | trans first _ ih ih' =>
      exact fun place => (ih' (first.distinct distinct) place).trans (ih distinct place)

theorem Alike.symm {root root' : Node} (alike : root.Alike root') : root'.Alike root :=
  fun place => (alike place).symm

theorem Alike.dir_iff {root root' : Node} (alike : root.Alike root') (place : List String) :
    (∃ entries, root'.at? place = some (dir entries)) ↔
      ∃ entries, root.at? place = some (dir entries) := by
  rw [← map_bare_eq_dir, alike, map_bare_eq_dir]

end Node

namespace FileTree

theorem isDirectory_eq_true {tree : FileTree} {path : String} :
    tree.isDirectory path = true ↔
      ∃ place, tree.locate true path = .ok (.found place) ∧
        ∃ entries, tree.root.at? place = some (.dir entries) := by
  rw [isDirectory]
  split
  case h_1 place located =>
    simp only [located, Except.ok.injEq, Place.found.injEq, exists_eq_left']
    split
    case h_1 entries inside => simp [inside]
    case h_2 other => simpa using other
  case h_2 lost => simpa using fun place located => (lost place located).elim

theorem follow_cons (root : Node) (followLast : Bool) (links : Nat) (here : List String)
    (name : String) (rest : List String) :
    follow root followLast links here (name :: rest) =
      match (root.at? here).map Node.bare with
      | some (.dir _) =>
        if name == "" || name == "." then follow root followLast links here rest
        else if name == ".." then follow root followLast links here.dropLast rest
        else if maxName < name.utf8ByteSize then .error .nameTooLong
        else
          match (root.at? (here ++ [name])).map Node.bare with
          | none => if rest.isEmpty then .ok (.free here name) else .error .missing
          | some (.link target) =>
            if rest.isEmpty && !followLast then .ok (.found (here ++ [name]))
            else
              match links with
              | 0 => .error .tooManyLinks
              | links + 1 =>
                if target.isEmpty then .error .missing
                else
                  follow root followLast links (if Path.isAbsolute target then [] else here)
                    (Path.segments target ++ rest)
          | some _ => follow root followLast links (here ++ [name]) rest
      | _ => .error .notDirectory := by
  rw [follow]
  rcases inside : root.at? here with _ | bytes | target | entries
  · rfl
  · rfl
  · rfl
  · simp only [Node.at?_concat inside, Option.map_some, Node.bare]
    rcases entries.lookup name with _ | bytes | target | below
    · rfl
    · rfl
    · cases links <;> rfl
    · rfl

theorem realFrom_cons (root : Node) (fuel : Nat) (active : List (List String))
    (here : List String) (name : String) (rest : List String) :
    realFrom root fuel active here (name :: rest) =
      if name == "" || name == "." then realFrom root fuel active here rest
      else if name == ".." then realFrom root fuel active here.dropLast rest
      else
        match (root.at? (here ++ [name])).map Node.bare with
        | some (.link target) =>
          match fuel with
          | 0 => (here ++ [name] ++ rest, false)
          | fuel + 1 =>
            if active.contains (here ++ [name]) then (here ++ [name] ++ rest, false)
            else
              match realFrom root fuel ((here ++ [name]) :: active)
                  (if Path.isAbsolute target then [] else here) (Path.segments target) with
              | (place, false) => (place ++ rest, false)
              | (place, true) => realFrom root fuel active place rest
        | _ => realFrom root fuel active (here ++ [name]) rest := by
  rw [realFrom]
  dsimp only
  rcases root.at? (here ++ [name]) with _ | bytes | target | entries
  · rfl
  · rfl
  · cases fuel <;> rfl
  · rfl

section

variable {root root' : Node} (alike : root.Alike root')

include alike

theorem follow_alike (followLast : Bool) (links : Nat) (here names : List String) :
    follow root' followLast links here names = follow root followLast links here names := by
  induction links generalizing here names with
  | zero =>
      induction names generalizing here with
      | nil => rw [follow, follow]
      | cons name rest shorter => simp only [follow_cons, alike _, shorter]
  | succ links fewer =>
      induction names generalizing here with
      | nil => rw [follow, follow]
      | cons name rest shorter => simp only [follow_cons, alike _, shorter, fewer]

theorem realFrom_alike (fuel : Nat) (active : List (List String)) (here names : List String) :
    realFrom root' fuel active here names = realFrom root fuel active here names := by
  induction fuel generalizing active here names with
  | zero =>
      induction names generalizing here with
      | nil => rw [realFrom, realFrom]
      | cons name rest shorter => simp only [realFrom_cons, alike _, shorter]
  | succ fuel fewer =>
      induction names generalizing here with
      | nil => rw [realFrom, realFrom]
      | cons name rest shorter => simp only [realFrom_cons, alike _, shorter, fewer]

end

section

variable {tree : FileTree} {root' : Node} (alike : tree.root.Alike root')

include alike

theorem locate_alike (followLast : Bool) (path : String) :
    { tree with root := root' }.locate followLast path = tree.locate followLast path := by
  simp only [locate, place, follow_alike alike]

theorem isDirectory_alike (path : String) :
    { tree with root := root' }.isDirectory path = tree.isDirectory path := by
  rw [Bool.eq_iff_iff, isDirectory_eq_true, isDirectory_eq_true]
  simp only [locate_alike alike]
  exact exists_congr fun place => and_congr_right fun _ => alike.dir_iff place

theorem realPlace_alike (place : List String) :
    { tree with root := root' }.realPlace place = tree.realPlace place := by
  rw [realPlace, realPlace, realFrom_alike alike]

end

end FileTree

end CallTimeline
