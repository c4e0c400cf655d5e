import CallTimeline.Proofs.FileTree.Steps
import CallTimeline.Proofs.Results
import CallTimeline.Source.Shelf

namespace CallTimeline

/-- `Lighter fewer names`: without some of the empty names and single points. -/
inductive Lighter : List String → List String → Prop where
  | nil : Lighter [] []
  | keep (name : String) {fewer names : List String} :
      Lighter fewer names → Lighter (name :: fewer) (name :: names)
  | skip {name : String} {fewer names : List String} :
      (name == "" || name == ".") = true → Lighter fewer names → Lighter fewer (name :: names)

theorem Lighter.append_left {fewer names : List String} (lighter : Lighter fewer names)
    (before : List String) : Lighter (before ++ fewer) (before ++ names) := by
  induction before with
  | nil => exact lighter
  | cons name before ih => exact ih.keep name

theorem lighter_steps (path : String) : Lighter (Path.steps path) (Path.segments path) := by
  rw [Path.steps]
  induction Path.segments path with
  | nil => exact .nil
  | cons name names ih =>
      rw [List.filter_cons]
      split
      case isTrue => exact ih.keep name
      case isFalse skipped => exact ih.skip (by simpa [or_iff_not_imp_left] using skipped)

namespace FileTree

theorem follow_lost {root : Node} {followLast : Bool} {links : Nat} {here : List String}
    {name : String} {rest : List String}
    (lost : ∀ entries, root.at? here = some (.dir entries) → False) :
    follow root followLast links here (name :: rest) = .error .notDirectory := by
  rw [follow]
  split
  case h_1 entries node => exact (lost entries node).elim
  case h_2 => rfl

section

variable {root : Node} {followLast : Bool} {links : Nat} {here : List String} {name : String}
  {rest : List String} {entries : List (String × Node)} (node : root.at? here = some (.dir entries))

include node

theorem follow_idle (idle : (name == "" || name == ".") = true) :
    follow root followLast links here (name :: rest) = follow root followLast links here rest := by
  rw [follow, node]
  simp only [idle, if_true]

variable (kept : ¬(name == "" || name == ".") = true)

include kept

theorem follow_above (above : (name == "..") = true) :
    follow root followLast links here (name :: rest) =
      follow root followLast links here.dropLast rest := by
  rw [follow, node]
  simp only [kept, above, if_true]
  rfl

variable (notAbove : ¬(name == "..") = true) (short : ¬maxName < name.utf8ByteSize)

include notAbove short

theorem follow_free (free : entries.lookup name = none) :
    follow root followLast links here [name] = .ok (.free here name) := by
  rw [follow, node]
  simp [kept, notAbove, short, free]

theorem follow_stays {target : String} (link : entries.lookup name = some (.link target))
    (stays : (rest.isEmpty && !followLast) = true) :
    follow root followLast links here (name :: rest) = .ok (.found (here ++ [name])) := by
  rw [follow, node]
  simp only [kept, notAbove, short, link, stays]
  rfl

theorem follow_link {target : String} (link : entries.lookup name = some (.link target))
    (last : ¬(rest.isEmpty && !followLast) = true) (some : ¬target.isEmpty = true) :
    follow root followLast (links + 1) here (name :: rest) =
      follow root followLast links (if Path.isAbsolute target then [] else here)
        (Path.segments target ++ rest) := by
  rw [follow, node]
  simp only [kept, notAbove, short, link, last, some]
  simp

theorem follow_below {below : Node} (entry : entries.lookup name = some below)
    (notLink : ∀ target, below = .link target → False) :
    follow root followLast links here (name :: rest) =
      follow root followLast links (here ++ [name]) rest := by
  rw [follow, node]
  simp only [kept, notAbove, short, entry, Bool.false_eq_true, if_false]

end

theorem follow_of_lighter {root : Node} {links : Nat} {here names fewer place : List String}
    (found : follow root true links here names = .ok (.found place))
    (lighter : Lighter fewer names) : follow root true links here fewer = .ok (.found place) := by
  -- Each step of the whole way is a step of the lighter one, or a name that it does not have.
  induction links, here, names using follow.induct root true
    generalizing fewer with
  | case1 =>
      cases lighter
      exact found
  | case2 links here name rest entries node idle ih =>
      rw [follow_idle node idle] at found
      cases lighter with
      | skip _ lighter => exact ih found lighter
      | keep _ lighter =>
          rw [follow_idle node idle]
          exact ih found lighter
  | case3 links here name rest entries node kept above ih =>
      cases lighter with
      | skip idle => exact absurd idle kept
      | keep _ lighter =>
          rw [follow_above node kept above] at found ⊢
          exact ih found lighter
  | case10 here name rest entries node kept notAbove short target link last links some ih =>
      cases lighter with
      | skip idle => exact absurd idle kept
      | keep _ lighter =>
          rw [follow_link node kept notAbove short link last some] at found
          rw [follow_link node kept notAbove short link (by simp) some]
          exact ih found (lighter.append_left _)
  | case11 links here name rest entries node kept notAbove short below notLink entry ih =>
      cases lighter with
      | skip idle => exact absurd idle kept
      | keep _ lighter =>
          rw [follow_below node kept notAbove short entry notLink] at found ⊢
          exact ih found lighter
  | case7 _ _ _ _ _ _ _ _ _ _ _ stays => simp at stays
  | _ =>
      -- Nothing is found where the way ends early.
      unfold follow at found
      simp [*] at found

theorem locate_eq_ok {tree : FileTree} {followLast : Bool} {path : String} {led : Place} :
    tree.locate followLast path = .ok led ↔
      (path.contains '\x00' = false ∧ path.isEmpty = false ∧ path.utf8ByteSize < maxPath) ∧
        follow tree.root followLast maxLinks
          (if Path.isAbsolute path then [] else tree.workingDirectory) (Path.segments path) =
            .ok led := by
  have kept : (tree.place followLast path).mapError (Fault.file · path) = .ok led ↔
      tree.place followLast path = .ok led := by
    cases tree.place followLast path <;> simp [Except.mapError]
  rw [locate, ← Bool.not_eq_true, ← Bool.not_eq_true, ← Nat.not_le]
  by_cases control : path.contains '\x00' = true
  · simp [control]
  rw [if_neg control, kept, place]
  by_cases empty : path.isEmpty = true
  · simp [empty]
  rw [if_neg empty]
  by_cases long : maxPath ≤ path.utf8ByteSize
  · simp [long]
  rw [if_neg long]
  exact (and_iff_right ⟨control, empty, long⟩).symm

theorem read_eq_ok {tree : FileTree} {path : String} {bytes : List UInt8} :
    tree.read path = .ok bytes ↔
      ∃ place, tree.locate true path = .ok (.found place) ∧
        tree.root.at? place = some (.file bytes) := by
  rw [read]
  constructor
  · intro read
    obtain ⟨led, located, read⟩ := of_bind_ok read
    cases led with
    | free directory name => cases read
    | found place =>
        refine ⟨place, located, ?_⟩
        simp only at read
        split at read
        case h_1 bytes file =>
          cases read
          exact file
        case h_2 => cases read
  · rintro ⟨place, located, file⟩
    rw [located]
    simp only [bind, Except.bind, file]
    rfl

theorem place_of_read {tree : FileTree} {path : String} {bytes : List UInt8}
    (absolute : Path.isAbsolute path = true) (read : tree.read path = .ok bytes) :
    ∃ place, follow tree.root true maxLinks [] (Path.segments path) = .ok (.found place) ∧
      tree.root.at? place = some (.file bytes) := by
  obtain ⟨place, located, file⟩ := read_eq_ok.mp read
  have leads := (locate_eq_ok.mp located).2
  rw [absolute, if_pos rfl] at leads
  exact ⟨place, leads, file⟩

end FileTree

theorem Source.Shelf.load_eq_of_steps_eq {tree : FileTree} {path path' : String}
    {text text' : List Char} (absolute : Path.isAbsolute path = true)
    (absolute' : Path.isAbsolute path' = true) (same : Path.steps path = Path.steps path')
    (loaded : load tree path = some text) (loaded' : load tree path' = some text') :
    text = text' := by
  unfold load at loaded loaded'
  split at loaded
  case h_2 => cases loaded
  case h_1 bytes read =>
    split at loaded'
    case h_2 => cases loaded'
    case h_1 bytes' read' =>
      obtain ⟨place, found, file⟩ := FileTree.place_of_read absolute read
      obtain ⟨place', found', file'⟩ := FileTree.place_of_read absolute' read'
      have led := FileTree.follow_of_lighter found (lighter_steps path)
      have led' := FileTree.follow_of_lighter found' (lighter_steps path')
      rw [same, led'] at led
      cases led
      rw [file'] at file
      cases file
      exact Option.some.inj (loaded.symm.trans loaded')

end CallTimeline
