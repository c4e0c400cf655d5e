import CallTimeline.Command.Arguments
import CallTimeline.Proofs.Results

/-!
# What is taken from arguments

What every option and every operand keeps holds at the end of the arguments (`Keeps.takeAll`). An
operand has no value only if a separator is an operand, and so stands behind another separator
(`two_le_count_of_operand`).
-/

namespace CallTimeline.Command

def Taken.IsOption : Taken → Prop
  | .option .. => True
  | .operand _ => False

variable {flags : List Flag}

theorem isOption_concat {taken : List Taken} (options : ∀ one ∈ taken, one.IsOption) (flag : Flag)
    (value : String) : ∀ one ∈ taken ++ [.option flag value], one.IsOption :=
  List.forall_mem_append.mpr ⟨options, List.forall_mem_singleton.mpr trivial⟩

theorem isOption_cluster {taken : List Taken} {flag : Flag} {letters : List Char} {settled : Settled}
    (options : ∀ one ∈ taken, one.IsOption)
    (settles : cluster flags taken flag letters = .ok settled) :
    ∀ one ∈ settled.taken, one.IsOption := by
  induction letters generalizing taken flag with
  | nil =>
      cases settles
      exact options
  | cons letter rest ih =>
      have more := isOption_concat options
      rw [cluster] at settles
      split at settles
      case isTrue =>
        cases settles
        exact more flag _
      case isFalse =>
        split at settles
        case isTrue => cases settles
        case isFalse =>
          simp only at settles
          split at settles
          case h_1 =>
            cases settles
            exact more flag _
          case h_2 =>
            split at settles
            case isTrue =>
              cases settles
              exact isOption_concat (more flag _) _ _
            case isFalse => cases settles
          case h_3 => exact ih (more flag _) settles

theorem isOption_settle {flag : Flag} {written : Written} {settled : Settled}
    (settles : settle flags flag written = .ok settled) : ∀ one ∈ settled.taken, one.IsOption := by
  cases written with
  | nothing =>
      cases settles
      exact List.forall_mem_nil _
  | value text =>
      rw [settle] at settles
      split at settles
      case isTrue =>
        cases settles
        exact List.forall_mem_singleton.mpr trivial
      case isFalse => cases settles
  | letters letters => exact isOption_cluster (List.forall_mem_nil _) settles

theorem takeValue_cases {pending : Option Flag} {rest rest' : List (String × Shape)}
    {taken : List Taken} (takes : takeValue pending rest = .ok (taken, rest')) :
    (∀ one ∈ taken, one.IsOption) ∧ rest' ⊆ rest := by
  unfold takeValue at takes
  split at takes
  case h_1 =>
    cases takes
    exact ⟨List.forall_mem_nil _, List.Subset.refl _⟩
  case h_2 flag =>
    split at takes
    case isTrue =>
      split at takes
      case h_1 =>
        cases takes
        exact ⟨List.forall_mem_singleton.mpr trivial, List.subset_cons_self _ _⟩
      case h_2 => cases takes
    case isFalse =>
      cases takes
      exact ⟨List.forall_mem_singleton.mpr trivial, List.Subset.refl _⟩

theorem groupValue?_eq_none {group : List String} (some : group ≠ [])
    (none : groupValue? group = none) : group = ["--"] := by
  rw [groupValue?, List.head?_eq_none_iff] at none
  obtain ⟨text, rest, rfl⟩ := List.exists_cons_of_ne_nil some
  rw [List.erase_cons] at none
  split at none
  case isTrue same =>
    rw [none, beq_iff_eq.mp same]
  case isFalse => cases none

def splitSeparator : List (String × Shape) → List String × List (String × Shape)
  | (text, .separator) :: rest => ([text], rest)
  | rest => ([], rest)

theorem splitSeparator_subset (arguments : List (String × Shape)) :
    (splitSeparator arguments).2 ⊆ arguments := by
  unfold splitSeparator
  split
  · exact List.subset_cons_self _ _
  · exact List.Subset.refl _

theorem operandGroup?_eq (arguments : List (String × Shape)) :
    operandGroup? arguments =
      match (splitSeparator arguments).2 with
      | (text, .operand) :: rest =>
        some ((splitSeparator arguments).1 ++ text :: (splitSeparator rest).1,
          (splitSeparator rest).2)
      | _ => none := rfl

theorem operandGroup?_cases {arguments rest : List (String × Shape)} {group : List String}
    (found : operandGroup? arguments = some (group, rest)) :
    rest ⊆ arguments ∧ (groupValue? group = none → ("--", .operand) ∈ arguments) := by
  rw [operandGroup?_eq] at found
  have among := splitSeparator_subset arguments
  split at found
  case h_2 => cases found
  case h_1 text behind here =>
    cases found
    rw [here] at among
    obtain ⟨operand, behind_subset⟩ := List.cons_subset.mp among
    refine ⟨List.Subset.trans (splitSeparator_subset behind) behind_subset, fun none => ?_⟩
    have single := groupValue?_eq_none (by simp) none
    have lone : text ∈ ["--"] := single ▸ by simp
    rwa [List.mem_singleton.mp lone] at operand

theorem operandGroups_cases {count : Nat} {arguments rest : List (String × Shape)}
    {groups : List (List String)} (found : operandGroups count arguments = (groups, rest)) :
    groups.length ≤ count ∧ rest ⊆ arguments ∧
      ∀ group ∈ groups, groupValue? group = none → ("--", .operand) ∈ arguments := by
  induction count generalizing arguments groups with
  | zero =>
      cases found
      exact ⟨Nat.le_refl 0, List.Subset.refl _, List.forall_mem_nil _⟩
  | succ count ih =>
      rw [operandGroups] at found
      split at found
      case h_1 =>
        cases found
        exact ⟨Nat.zero_le _, List.Subset.refl _, List.forall_mem_nil _⟩
      case h_2 group between first =>
        cases found
        obtain ⟨below, operand⟩ := operandGroup?_cases first
        obtain ⟨short, below', operands⟩ := ih rfl
        exact ⟨Nat.succ_le_succ short, List.Subset.trans below' below,
          List.forall_mem_cons.mpr ⟨operand, fun other member none =>
            below (operands other member none)⟩⟩

section

variable {σ : Type}

/-- `Inv` is kept by all that is taken: it is about the state and the number of operands that are
still wanted. -/
structure Keeps (act : σ → Taken → Except Refusal σ) (shapes : List (String × Shape))
    (Inv : σ → Nat → Prop) : Prop where
  option : ∀ {state after wanted flag value}, Inv state wanted →
    act state (.option flag value) = .ok after → Inv after wanted
  operand : ∀ {state after wanted value}, Inv state (wanted + 1) →
    (value = none → ("--", .operand) ∈ shapes) →
    act state (.operand value) = .ok after → Inv after wanted

variable {act : σ → Taken → Except Refusal σ} {shapes : List (String × Shape)}
  {Inv : σ → Nat → Prop} (keeps : Keeps act shapes Inv)

include keeps

theorem Keeps.options {taken : List Taken} {state after : σ} {wanted : Nat}
    (options : ∀ one ∈ taken, one.IsOption) (inv : Inv state wanted)
    (acts : taken.foldlM act state = .ok after) : Inv after wanted := by
  induction taken generalizing state with
  | nil =>
      cases acts
      exact inv
  | cons one rest ih =>
      obtain ⟨here, behind⟩ := List.forall_mem_cons.mp options
      obtain ⟨between, first, later⟩ := of_bind_ok acts
      cases one with
      | operand => cases here
      | option flag value => exact ih behind (keeps.option inv first) later

theorem Keeps.operands {groups : List (List String)} {state after : σ} {wanted : Nat}
    (operands : ∀ group ∈ groups, groupValue? group = none → ("--", .operand) ∈ shapes)
    (inv : Inv state (wanted + groups.length))
    (acts : groups.foldlM (fun state group => act state (.operand (groupValue? group))) state =
      .ok after) : Inv after wanted := by
  induction groups generalizing state with
  | nil =>
      cases acts
      exact inv
  | cons group rest ih =>
      obtain ⟨here, behind⟩ := List.forall_mem_cons.mp operands
      obtain ⟨between, first, later⟩ := of_bind_ok acts
      exact ih behind (keeps.operand inv here first) later

theorem Keeps.takeAll {fuel : Nat} {progress after : Progress σ}
    {arguments : List (String × Shape)} (among : arguments ⊆ shapes)
    (inv : Inv progress.state progress.wanted)
    (takes : takeAll flags act fuel progress arguments = .ok after) :
    Inv after.state after.wanted := by
  induction fuel generalizing progress arguments with
  | zero =>
      cases takes
      exact inv
  | succ fuel ih =>
      cases arguments with
      | nil =>
          cases takes
          exact inv
      | cons argument rest =>
          have behind := (List.cons_subset.mp among).2
          obtain ⟨text, shape⟩ := argument
          cases shape with
          | option flag written =>
              rw [Command.takeAll] at takes
              obtain ⟨settled, settles, takes⟩ := of_bind_ok takes
              obtain ⟨⟨taken, rest'⟩, value, takes⟩ := of_bind_ok takes
              obtain ⟨state, acts, takes⟩ := of_bind_ok takes
              obtain ⟨options, below⟩ := takeValue_cases value
              refine ih (List.Subset.trans below behind) ?_ takes
              exact keeps.options
                (List.forall_mem_append.mpr ⟨isOption_settle settles, options⟩) inv acts
          | unknown =>
              rw [Command.takeAll] at takes
              refine ih behind ?_ takes
              exact inv
          | operand | separator =>
              unfold Command.takeAll at takes
              split at takes
              case h_1 =>
                refine ih behind ?_ takes
                exact inv
              case h_2 groups rest' _ found =>
                obtain ⟨state, acts, takes⟩ := of_bind_ok takes
                obtain ⟨short, below, operands⟩ := operandGroups_cases found
                refine ih (List.Subset.trans below among) ?_ takes
                refine keeps.operands
                  (fun group member none => among (operands group member none)) ?_ acts
                rwa [Nat.sub_add_cancel short]

end

theorem two_le_count_of_operand {arguments : List String} {shapes : List (String × Shape)}
    (classified : classify flags arguments = .ok shapes) (operand : ("--", .operand) ∈ shapes) :
    2 ≤ arguments.count "--" := by
  induction arguments generalizing shapes with
  | nil =>
      cases classified
      cases operand
  | cons argument rest ih =>
      unfold classify at classified
      split at classified
      case h_1 none => cases none
      case h_2 same =>
        cases classified
        obtain ⟨rfl, rfl⟩ := List.cons.inj same
        have behind : "--" ∈ rest := by simpa using operand
        rw [List.count_cons_self]
        exact Nat.succ_le_succ (List.count_pos_iff.mpr behind)
      case h_3 other same =>
        obtain ⟨rfl, rfl⟩ := List.cons.inj same
        obtain ⟨shape, -, classified⟩ := of_bind_ok classified
        obtain ⟨shapes, later, classified⟩ := of_bind_ok classified
        cases classified
        obtain here | behind := List.mem_cons.mp operand
        · cases here
          exact (other rfl).elim
        · exact Nat.le_trans (ih later behind) (List.Sublist.count_le _ (List.sublist_cons_self _ _))

theorem of_parse {σ : Type} {act : σ → Taken → Except Refusal σ} {Inv : σ → Nat → Prop}
    {operands : Nat} {initial state : σ} {arguments : List String}
    (keeps : ∀ shapes, classify flags arguments = .ok shapes → Keeps act shapes Inv)
    (inv : Inv initial operands) (parses : parse flags operands initial act arguments = .ok state) :
    Inv state 0 := by
  obtain ⟨shapes, classified, parses⟩ := of_bind_ok parses
  obtain ⟨progress, takes, parses⟩ := of_bind_ok parses
  have inv := (keeps shapes classified).takeAll (List.Subset.refl _) inv takes
  split at parses
  case isTrue complete =>
    cases parses
    rwa [complete.1] at inv
  case isFalse => cases parses

end CallTimeline.Command
