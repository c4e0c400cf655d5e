import CallTimeline.Json.Name
import Mathlib.Data.List.Basic

namespace CallTimeline.Json

def IsText (value : Json) : Prop :=
  ∃ text, value = str text

theorem exists_texts {names : List Json} (text : ∀ name ∈ names, name.IsText) :
    ∃ texts : List String, names = texts.map str := by
  refine ⟨names.map keyText, ?_⟩
  rw [List.map_map]
  refine (List.map_id names).symm.trans (List.map_congr_left fun name member => ?_)
  obtain ⟨text, rfl⟩ := text name member
  rfl

theorem sameName_str {value : Json} {text : String} :
    value.sameName (str text) = true ↔ value = str text := by
  cases value <;> simp [sameName, numeral?]

theorem str_sameName {value : Json} {text : String} :
    (str text).sameName value = true ↔ value = str text := by
  cases value <;> simp [sameName, numeral?, @eq_comm _ text]

/-- Adds a name to those that have been seen, which are in reverse order. -/
def addDistinct (seen : List Json) (name : Json) : List Json :=
  if seen.any (sameName name) then seen else name :: seen

theorem mem_foldl_addDistinct {seen names : List Json} {name : Json}
    (member : name ∈ names.foldl addDistinct seen) : name ∈ seen ∨ name ∈ names := by
  induction names generalizing seen with
  | nil => exact .inl member
  | cons first rest ih =>
      obtain before | later := ih member
      · unfold addDistinct at before
        split at before
        · exact .inl before
        · obtain rfl | before := List.mem_cons.mp before
          · exact .inr List.mem_cons_self
          · exact .inl before
      · exact .inr (List.mem_cons_of_mem first later)

theorem str_mem_addDistinct (seen : List Json) (text : String) :
    str text ∈ addDistinct seen (str text) := by
  unfold addDistinct
  split
  case isTrue present =>
    obtain ⟨name, member, same⟩ := List.any_eq_true.mp present
    exact str_sameName.mp same ▸ member
  case isFalse => exact List.mem_cons_self

theorem str_mem_foldl_addDistinct {seen names : List Json} {text : String}
    (member : str text ∈ seen ∨ str text ∈ names) :
    str text ∈ names.foldl addDistinct seen := by
  induction names generalizing seen with
  | nil => exact member.resolve_right List.not_mem_nil
  | cons first rest ih =>
      refine ih ?_
      obtain before | among := member
      · refine .inl ?_
        unfold addDistinct
        split
        · exact before
        · exact List.mem_cons_of_mem first before
      · obtain rfl | later := List.mem_cons.mp among
        · exact .inl (str_mem_addDistinct seen text)
        · exact .inr later

theorem distinctNames_eq (names : List Json) :
    distinctNames names = (names.foldl addDistinct []).reverse := rfl

theorem mem_of_mem_distinctNames {names : List Json} {name : Json}
    (member : name ∈ distinctNames names) : name ∈ names := by
  rw [distinctNames_eq, List.mem_reverse] at member
  exact (mem_foldl_addDistinct member).resolve_left List.not_mem_nil

theorem str_mem_distinctNames {names : List Json} {text : String} :
    str text ∈ distinctNames names ↔ str text ∈ names := by
  refine ⟨mem_of_mem_distinctNames, fun member => ?_⟩
  rw [distinctNames_eq, List.mem_reverse]
  exact str_mem_foldl_addDistinct (.inr member)

theorem pairwise_foldl_addDistinct {seen : List Json} (names : List Json)
    (distinct : seen.Pairwise fun name earlier => name.sameName earlier = false) :
    (names.foldl addDistinct seen).Pairwise fun name earlier => name.sameName earlier = false := by
  induction names generalizing seen with
  | nil => exact distinct
  | cons name names ih =>
      refine ih ?_
      unfold addDistinct
      split
      case isTrue => exact distinct
      case isFalse new =>
        refine List.pairwise_cons.mpr ⟨fun earlier member => ?_, distinct⟩
        rw [← Bool.not_eq_true]
        exact fun same => new (List.any_eq_true.mpr ⟨earlier, member, same⟩)

theorem foldl_addDistinct_reverse {seen : List Json}
    (distinct : seen.Pairwise fun name earlier => name.sameName earlier = false) :
    seen.reverse.foldl addDistinct [] = seen := by
  induction seen with
  | nil => rfl
  | cons name seen ih =>
      obtain ⟨new, distinct⟩ := List.pairwise_cons.mp distinct
      have absent : seen.any (sameName name) = false :=
        List.any_eq_false.mpr fun earlier member => Bool.not_eq_true _ ▸ new earlier member
      rw [List.reverse_cons, List.foldl_append, ih distinct, List.foldl_cons, List.foldl_nil,
        addDistinct, absent, if_neg Bool.false_ne_true]

theorem distinctNames_distinctNames (names : List Json) :
    distinctNames (distinctNames names) = distinctNames names := by
  rw [distinctNames_eq, distinctNames_eq,
    foldl_addDistinct_reverse (pairwise_foldl_addDistinct names .nil)]

theorem distinctNames_map_str (names : List String) :
    distinctNames (names.map str) = names.eraseDups.map str := by
  have kept (seen : List String) : ((names.map str).foldl addDistinct (seen.map str)).reverse =
      (List.eraseDupsBy.loop (· == ·) names seen).map str := by
    induction names generalizing seen with
    | nil => rw [List.map_nil, List.foldl_nil, List.eraseDupsBy.loop, List.map_reverse]
    | cons name rest ih =>
        have present : (seen.map str).any (sameName (str name)) = seen.any (name == ·) := by
          rw [List.any_map]
          rfl
        rw [List.map_cons, List.foldl_cons, addDistinct, present, List.eraseDupsBy.loop]
        cases seen.any (name == ·) with
        | true => exact ih seen
        | false => exact ih (name :: seen)
  exact kept []

theorem nodup_of_distinctNames {texts : List String}
    (same : distinctNames (texts.map str) = texts.map str) : texts.Nodup := by
  have distinct := pairwise_foldl_addDistinct (texts.map str) .nil
  rw [distinctNames_eq, List.reverse_eq_iff] at same
  rw [same, List.pairwise_reverse, List.pairwise_map] at distinct
  refine distinct.imp fun {text text'} apart same => ?_
  rw [sameName_str.mpr (congrArg str same.symm)] at apart
  cases apart

theorem clash?_of_text {names : List Json} (text : ∀ name ∈ names, name.IsText) :
    clash? names = none := by
  match names with
  | [] => rfl
  | [_] => rfl
  | first :: second :: rest =>
      obtain ⟨_, rfl⟩ := text first List.mem_cons_self
      obtain ⟨_, rfl⟩ := text second (List.mem_cons_of_mem _ List.mem_cons_self)
      rw [clash?, comparable, if_pos rfl]
      exact clash?_of_text fun name member => text name (List.mem_cons_of_mem _ member)

theorem sortByName_of_text {α : Type} {pairs : List (Json × α)}
    (text : ∀ pair ∈ pairs, pair.1.IsText) :
    sortByName pairs = .ok (pairs.mergeSort fun a b => nameLE a.1 b.1) := by
  have names : ∀ name ∈ pairs.map (·.1), name.IsText := by
    intro name member
    obtain ⟨pair, among, rfl⟩ := List.mem_map.mp member
    exact text pair among
  rw [sortByName, clash?_of_text names]

end CallTimeline.Json
