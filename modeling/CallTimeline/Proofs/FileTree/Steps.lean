import CallTimeline.FileTree.Path
import Mathlib.Data.List.Basic
import Mathlib.Data.List.TakeWhile

/-!
# The steps of a path

A path goes through the names between its slashes. Joining paths joins their steps (`steps_join`), a
path of names goes through these names (`steps_intercalate`), and an absolute path that never goes up
keeps its steps when it is normalized (`names_normalize_of_upright`). Two such paths are told apart by
their relative paths: those with one relative path have the same steps (`steps_eq_of_relative_eq`).
-/

namespace CallTimeline.Path

open Text

/-! ## Segments -/

theorem splitAt_eq_splitOn (separator : Char) (text : List Char) :
    splitAt separator text = text.splitOn separator := by
  induction text with
  | nil => rfl
  | cons c text ih =>
      rw [splitAt, List.splitOn_cons_eq_if_modifyHead, ih]
      split
      · rfl
      · split
        case h_1 none => exact absurd none (List.splitOn_ne_nil separator text)
        case h_2 parts => rw [parts]; rfl

theorem segments_eq (path : String) :
    segments path = (path.toList.splitOn '/').map String.ofList := by
  rw [segments, splitAt_eq_splitOn]

theorem not_mem_of_mem_splitAt {separator : Char} {text part : List Char}
    (member : part ∈ splitAt separator text) : separator ∉ part := by
  induction text generalizing part with
  | nil =>
      obtain rfl := List.mem_singleton.mp member
      exact List.not_mem_nil
  | cons c text ih =>
      rw [splitAt] at member
      split at member
      case isTrue =>
        obtain rfl | later := List.mem_cons.mp member
        · exact List.not_mem_nil
        · exact ih later
      case isFalse other =>
        have other : separator ≠ c := fun same => other (by simp [same])
        split at member
        case h_1 =>
          obtain rfl := List.mem_singleton.mp member
          exact fun here => other (List.mem_singleton.mp here)
        case h_2 first parts found =>
          rw [found] at ih
          obtain rfl | later := List.mem_cons.mp member
          · intro here
            obtain same | inside := List.mem_cons.mp here
            · exact other same
            · exact ih List.mem_cons_self inside
          · exact ih (List.mem_cons_of_mem first later)

theorem segments_ne_nil (path : String) : segments path ≠ [] := by
  rw [segments_eq]
  simp [List.splitOn_ne_nil]

theorem not_slash_of_mem_segments {path segment : String} (member : segment ∈ segments path) :
    '/' ∉ segment.toList := by
  obtain ⟨part, among, rfl⟩ := List.mem_map.mp member
  rw [String.toList_ofList]
  exact not_mem_of_mem_splitAt among

theorem segments_slash (base path : List Char) :
    segments (String.ofList (base ++ '/' :: path)) =
      segments (String.ofList base) ++ segments (String.ofList path) := by
  simp only [segments_eq, String.toList_ofList, List.splitOn_append_cons_self, List.map_append]

theorem segments_intercalate {names : List String} (whole : ∀ name ∈ names, '/' ∉ name.toList)
    (nonempty : names ≠ []) : segments ("/".intercalate names) = names := by
  have slash : "/".toList = ['/'] := rfl
  rw [segments_eq, String.toList_intercalate, slash, List.splitOn_intercalate, List.map_map]
  · exact (List.map_congr_left fun name _ => String.ofList_toList).trans (List.map_id names)
  · intro letters member
    obtain ⟨name, among, rfl⟩ := List.mem_map.mp member
    exact whole name among
  · simpa using nonempty

/-! ## Steps -/

def steps (path : String) : List String :=
  (segments path).filter fun segment => segment != "" && segment != "."

structure IsName (name : String) : Prop where
  nonempty : name ≠ ""
  notHere : name ≠ "."
  notAbove : name ≠ ".."
  whole : '/' ∉ name.toList

theorem above_mem_steps {path : String} : ".." ∈ steps path ↔ ".." ∈ segments path := by
  rw [steps, List.mem_filter]
  exact ⟨And.left, fun member => ⟨member, by decide⟩⟩

theorem filter_of_isName {names : List String} (proper : ∀ name ∈ names, IsName name) :
    names.filter (fun segment => segment != "" && segment != ".") = names := by
  refine List.filter_eq_self.mpr fun name member => ?_
  simp [(proper name member).nonempty, (proper name member).notHere]

theorem steps_intercalate {names : List String} (proper : ∀ name ∈ names, IsName name) :
    steps ("/".intercalate names) = names := by
  cases names with
  | nil => rfl
  | cons first rest =>
      rw [steps, segments_intercalate (fun name member => (proper name member).whole)
        (List.cons_ne_nil first rest), filter_of_isName proper]

theorem steps_slash (base path : List Char) :
    steps (String.ofList (base ++ '/' :: path)) =
      steps (String.ofList base) ++ steps (String.ofList path) := by
  rw [steps, segments_slash, List.filter_append]
  rfl

theorem steps_join {base path : String} (relative : isAbsolute path = false) :
    steps (join base path) = steps base ++ steps path := by
  cases empty : base.isEmpty with
  | true =>
      obtain rfl : base = "" := by simpa using empty
      have joined : join "" path = path := if_pos (Bool.or_true _)
      rw [joined]
      rfl
  | false =>
      rw [join, relative, empty, Bool.or_false, if_neg Bool.false_ne_true]
      split
      case isTrue ends =>
        obtain ⟨front, base_eq⟩ := List.getLast?_eq_some_iff.mp (by simpa using ends)
        have base_eq : base = String.ofList (front ++ '/' :: []) := by
          rw [← base_eq, String.ofList_toList]
        have joined : base ++ path = String.ofList (front ++ '/' :: path.toList) := by
          rw [base_eq, ← String.toList_inj]
          simp
        rw [joined, base_eq, steps_slash, steps_slash, String.ofList_toList, List.append_assoc]
        rfl
      case isFalse =>
        have joined : base ++ "/" ++ path = String.ofList (base.toList ++ '/' :: path.toList) := by
          rw [← String.toList_inj]
          simp
        rw [joined, steps_slash, String.ofList_toList, String.ofList_toList]

theorem join_of_isAbsolute {base path : String} (absolute : isAbsolute path = true) :
    join base path = path := by
  rw [join, absolute, Bool.true_or, if_pos rfl]

theorem upright_join {base path : String} (upright : ".." ∉ steps base)
    (upright' : ".." ∉ steps path) : ".." ∉ steps (join base path) := by
  cases absolute : isAbsolute path with
  | true => rwa [join_of_isAbsolute absolute]
  | false =>
      rw [steps_join absolute]
      exact List.not_mem_append upright upright'

theorem isAbsolute_join {base path : String} (absolute : isAbsolute base = true) :
    isAbsolute (join base path) = true := by
  obtain ⟨rest, base_eq⟩ : ∃ rest, base.toList = '/' :: rest := by
    rw [isAbsolute, beq_iff_eq] at absolute
    exact List.head?_eq_some_iff.mp absolute
  unfold join
  split
  case isTrue either =>
    obtain given | none := Bool.or_eq_true_iff.mp either
    · exact given
    · obtain rfl : base = "" := by simpa using none
      cases base_eq
  case isFalse => split <;> simp [isAbsolute, base_eq]

/-! ## Normal forms -/

theorem resolveDots_of_upright (absolute : Bool) (done : List String) {segments : List String}
    (upright : ".." ∉ segments) :
    resolveDots absolute done segments =
      done.reverse ++ segments.filter fun segment => segment != "" && segment != "." := by
  induction segments generalizing done with
  | nil => simp [resolveDots]
  | cons segment rest ih =>
      have later : ".." ∉ rest := fun member => upright (List.mem_cons_of_mem segment member)
      have here : segment ≠ ".." := fun same => upright (same ▸ List.mem_cons_self)
      simp only [resolveDots, ih _ later]
      by_cases skipped : segment = "" ∨ segment = "."
      · obtain rfl | rfl := skipped <;> simp
      · obtain ⟨nonempty, notHere⟩ := not_or.mp skipped
        simp [nonempty, notHere, here]

theorem isName_of_mem_resolveDots {done segments : List String} {name : String}
    (proper : ∀ name ∈ done, IsName name) (whole : ∀ segment ∈ segments, '/' ∉ segment.toList)
    (member : name ∈ resolveDots true done segments) : IsName name := by
  induction segments generalizing done with
  | nil => exact proper name (List.mem_reverse.mp member)
  | cons segment rest ih =>
      have later : ∀ segment ∈ rest, '/' ∉ segment.toList :=
        fun segment among => whole segment (List.mem_cons_of_mem _ among)
      unfold resolveDots at member
      split at member
      case isTrue => exact ih proper later member
      case isFalse kept =>
        split at member
        case isTrue notAbove =>
          refine ih (fun name among => ?_) later member
          obtain rfl | among := List.mem_cons.mp among
          · simp only [Bool.or_eq_true, beq_iff_eq, not_or] at kept
            exact ⟨kept.1, kept.2, by simpa using notAbove, whole name List.mem_cons_self⟩
          · exact proper name among
        case isFalse =>
          split at member
          case h_1 => exact ih (fun _ none => by cases none) later member
          case h_2 last before =>
            have notAbove := (proper last List.mem_cons_self).notAbove
            rw [if_neg (by simpa using notAbove)] at member
            exact ih (fun name among => proper name (List.mem_cons_of_mem last among)) later member

theorem proper_resolveDots (path : String) :
    ∀ name ∈ resolveDots true [] (segments path), IsName name := fun _ member =>
  isName_of_mem_resolveDots (fun _ none => by cases none)
    (fun _ among => not_slash_of_mem_segments among) member

theorem filter_segments_intercalate {names : List String} (proper : ∀ name ∈ names, IsName name) :
    (segments ("/".intercalate names)).filter (· != "") = names := by
  cases names with
  | nil => rfl
  | cons first rest =>
      rw [segments_intercalate (fun name member => (proper name member).whole)
        (List.cons_ne_nil first rest)]
      exact List.filter_eq_self.mpr fun name member => by simp [(proper name member).nonempty]

theorem segments_root (path : List Char) :
    segments (String.ofList ('/' :: path)) = "" :: segments (String.ofList path) :=
  segments_slash [] path

theorem anchor_of_isAbsolute {path : String} (absolute : isAbsolute path = true) :
    anchor path = "/" ∨ anchor path = "//" := by
  rw [isAbsolute, beq_iff_eq] at absolute
  obtain ⟨rest, path_eq⟩ := List.head?_eq_some_iff.mp absolute
  unfold anchor
  split
  case h_4 none => exact absurd path_eq (none rest)
  all_goals simp

theorem normalize_eq {path : String} (absolute : isAbsolute path = true) :
    let text := ("/".intercalate (resolveDots true [] (segments path))).toList
    normalize path = String.ofList ('/' :: text) ∨
      normalize path = String.ofList ('/' :: '/' :: text) := by
  intro text
  have joined : normalize path =
      if (anchor path ++ String.ofList text).isEmpty then "."
      else anchor path ++ String.ofList text := by
    rw [normalize, absolute, String.ofList_toList]
  obtain one | two := anchor_of_isAbsolute absolute
  · have text_eq : "/" ++ String.ofList text = String.ofList ('/' :: text) := by
      simp
    rw [joined, one, text_eq, if_neg (by simp)]
    exact .inl rfl
  · have text_eq : "//" ++ String.ofList text = String.ofList ('/' :: '/' :: text) := by
      simp [← String.toList_inj]
    rw [joined, two, text_eq, if_neg (by simp)]
    exact .inr rfl

theorem isAbsolute_normalize {path : String} (absolute : isAbsolute path = true) :
    isAbsolute (normalize path) = true := by
  obtain one | two := normalize_eq absolute
  · rw [one]
    simp [isAbsolute]
  · rw [two]
    simp [isAbsolute]

theorem names_normalize {path : String} (absolute : isAbsolute path = true) :
    (segments (normalize path)).filter (· != "") = resolveDots true [] (segments path) := by
  have kept := filter_segments_intercalate (proper_resolveDots path)
  obtain one | two := normalize_eq absolute
  · rw [one, segments_root, String.ofList_toList]
    simpa using kept
  · rw [two, segments_root, segments_root, String.ofList_toList]
    simpa using kept

theorem names_normalize_of_upright {path : String} (absolute : isAbsolute path = true)
    (upright : ".." ∉ steps path) :
    (segments (normalize path)).filter (· != "") = steps path := by
  rw [names_normalize absolute, resolveDots_of_upright true [] (mt above_mem_steps.mpr upright)]
  rfl

theorem upright_normalize {path : String} (absolute : isAbsolute path = true) :
    ".." ∉ steps (normalize path) := by
  intro member
  have among : ".." ∈ (segments (normalize path)).filter (· != "") :=
    List.mem_filter.mpr ⟨above_mem_steps.mp member, by decide⟩
  rw [names_normalize absolute] at among
  exact (proper_resolveDots path ".." among).notAbove rfl

/-! ## Relative paths -/

theorem dropCommon_append (as bs : List String) :
    ∃ common, as = common ++ (dropCommon as bs).1 ∧ bs = common ++ (dropCommon as bs).2 := by
  induction as, bs using dropCommon.induct with
  | case1 a as b bs same ih =>
      obtain ⟨common, left, right⟩ := ih
      obtain rfl := beq_iff_eq.mp same
      rw [dropCommon, if_pos same]
      exact ⟨a :: common, congrArg (a :: ·) left, congrArg (a :: ·) right⟩
  | case2 a as b bs other =>
      rw [dropCommon, if_neg other]
      exact ⟨[], rfl, rfl⟩
  | case3 as bs edge =>
      rw [dropCommon.eq_2 _ _ edge]
      exact ⟨[], rfl, rfl⟩

/-- The way from one place to another: up to where both come together, then down. -/
def way (up down : List String) : List String :=
  up.map (fun _ => "..") ++ down

theorem way_injective {up up' down down' : List String} (proper : ∀ name ∈ down, IsName name)
    (proper' : ∀ name ∈ down', IsName name) (same : way up down = way up' down') :
    up.length = up'.length ∧ down = down' := by
  induction up generalizing up' with
  | nil =>
      cases up' with
      | nil => exact ⟨rfl, same⟩
      | cons name up' =>
          obtain rfl : down = ".." :: way up' down' := same
          exact absurd rfl (proper _ List.mem_cons_self).notAbove
  | cons name up ih =>
      cases up' with
      | nil =>
          obtain rfl : ".." :: way up down = down' := same
          exact absurd rfl (proper' _ List.mem_cons_self).notAbove
      | cons name' up' =>
          obtain ⟨length_eq, down_eq⟩ := ih (List.cons.inj same).2
          exact ⟨congrArg (· + 1) length_eq, down_eq⟩

theorem segments_way {up down : List String} (proper : ∀ name ∈ down, IsName name) :
    segments (if (way up down).isEmpty then "." else "/".intercalate (way up down)) =
      if (way up down).isEmpty then ["."] else way up down := by
  split
  case isTrue => rfl
  case isFalse some =>
    refine segments_intercalate (fun name member => ?_) (by simpa using some)
    obtain above | below := List.mem_append.mp member
    · obtain ⟨_, -, rfl⟩ := List.mem_map.mp above
      decide
    · exact (proper name below).whole

theorem way_text_injective {up up' down down' : List String}
    (proper : ∀ name ∈ down, IsName name) (proper' : ∀ name ∈ down', IsName name)
    (same : (if (way up down).isEmpty then "." else "/".intercalate (way up down)) =
      if (way up' down').isEmpty then "." else "/".intercalate (way up' down')) :
    way up down = way up' down' := by
  have segments_eq := congrArg segments same
  rw [segments_way proper, segments_way proper'] at segments_eq
  -- An empty way is written as a point, and no other way is one.
  have notHere {up down : List String} (proper : ∀ name ∈ down, IsName name) :
      way up down ≠ ["."] := by
    intro here
    have member : "." ∈ way up down := by rw [here]; exact List.mem_singleton_self "."
    obtain above | below := List.mem_append.mp member
    · obtain ⟨_, -, up_eq⟩ := List.mem_map.mp above
      exact absurd up_eq (by decide)
    · exact (proper "." below).notHere rfl
  split at segments_eq <;> split at segments_eq
  case isTrue.isTrue none none' =>
    rw [List.isEmpty_iff.mp none, List.isEmpty_iff.mp none']
  case isTrue.isFalse => exact absurd segments_eq.symm (notHere proper')
  case isFalse.isTrue => exact absurd segments_eq (notHere proper)
  case isFalse.isFalse => exact segments_eq

theorem isName_of_mem_steps {path name : String} (upright : ".." ∉ steps path)
    (member : name ∈ steps path) : IsName name := by
  obtain ⟨among, kept⟩ := List.mem_filter.mp member
  simp only [Bool.and_eq_true, bne_iff_ne] at kept
  exact ⟨kept.1, kept.2, fun above => upright (above ▸ member), not_slash_of_mem_segments among⟩

theorem steps_eq_of_relative_eq {path path' start : String} (absolute : isAbsolute path = true)
    (absolute' : isAbsolute path' = true) (upright : ".." ∉ steps path)
    (upright' : ".." ∉ steps path') (same : relative path start = relative path' start) :
    steps path = steps path' := by
  unfold relative at same
  rw [names_normalize_of_upright absolute upright,
    names_normalize_of_upright absolute' upright'] at same
  generalize (segments (normalize start)).filter (· != "") = base at same
  obtain ⟨common, path_eq, base_eq⟩ := dropCommon_append (steps path) base
  obtain ⟨common', path_eq', base_eq'⟩ := dropCommon_append (steps path') base
  generalize dropCommon (steps path) base = parts at same path_eq base_eq
  generalize dropCommon (steps path') base = parts' at same path_eq' base_eq'
  obtain ⟨down, up⟩ := parts
  obtain ⟨down', up'⟩ := parts'
  have proper : ∀ name ∈ down, IsName name := fun name member =>
    isName_of_mem_steps upright (by rw [path_eq]; exact List.mem_append_right common member)
  have proper' : ∀ name ∈ down', IsName name := fun name member =>
    isName_of_mem_steps upright' (by rw [path_eq']; exact List.mem_append_right common' member)
  -- The way up is counted by its points, so what both paths share with `start` is equally long.
  obtain ⟨length_eq, down_eq⟩ :=
    way_injective proper proper' (way_text_injective proper proper' same)
  obtain ⟨common_eq, -⟩ := List.append_inj' (base_eq.symm.trans base_eq') length_eq
  rw [path_eq, path_eq', common_eq]
  exact congrArg (common' ++ ·) down_eq

end CallTimeline.Path
