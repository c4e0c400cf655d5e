import CallTimeline.Json.Value

namespace CallTimeline.Json.Fields

variable (fields : Fields) {key key' : String} (value value' : Json)

theorem set_cons (key : String) (field : String × Json) :
    set (field :: fields) key value =
      if field.1 = key then (key, value) :: fields else field :: set fields key value := by
  simp [set]

theorem get?_cons (key : String) (field : String × Json) :
    get? (field :: fields) key = if field.1 = key then some field.2 else get? fields key := by
  obtain ⟨name, held⟩ := field
  by_cases same : name = key
  · simp [get?, same]
  · have other : (key == name) = false := beq_false_of_ne (Ne.symm same)
    rw [get?, List.lookup_cons, other, if_neg same, get?]

@[simp] theorem get?_set_self : (fields.set key value).get? key = some value := by
  induction fields with
  | nil => rw [set, get?_cons, if_pos rfl]
  | cons field fields ih =>
      rw [set_cons]
      split
      case isTrue => rw [get?_cons, if_pos rfl]
      case isFalse other => rw [get?_cons, if_neg other, ih]

theorem get?_set_of_ne (ne : key' ≠ key) : (fields.set key value).get? key' = fields.get? key' := by
  induction fields with
  | nil => rw [set, get?_cons, if_neg ne.symm]
  | cons field fields ih =>
      rw [set_cons, get?_cons]
      split
      case isTrue same => rw [get?_cons, if_neg ne.symm, if_neg fun h => ne (h.symm.trans same)]
      case isFalse => rw [get?_cons, ih]

@[simp] theorem set_set : (fields.set key value).set key value' = fields.set key value' := by
  induction fields with
  | nil => rw [set, set_cons, if_pos rfl, set]
  | cons field fields ih =>
      rw [set_cons, set_cons]
      split
      case isTrue => rw [set_cons, if_pos rfl]
      case isFalse other => rw [set_cons, if_neg other, ih]

theorem set_comm (ne : key ≠ key') (present : (fields.get? key).isSome) :
    (fields.set key value).set key' value' = (fields.set key' value').set key value := by
  induction fields with
  | nil => cases present
  | cons field fields ih =>
      obtain ⟨name, held⟩ := field
      rw [get?_cons] at present
      simp only [set_cons]
      by_cases here : name = key
      · subst here
        rw [if_pos rfl, if_neg ne, set_cons, set_cons, if_neg ne, if_pos rfl]
      · rw [if_neg here] at present ⊢
        rw [set_cons]
        split
        case isTrue => rw [set_cons, if_neg ne.symm]
        case isFalse => rw [set_cons, if_neg here, ih present]

def without (fields : Fields) (keys : List String) : Fields :=
  fields.filter fun field => field.1 ∉ keys

variable {keys : List String}

theorem without_cons (field : String × Json) :
    without (field :: fields) keys =
      if field.1 ∈ keys then fields.without keys else field :: fields.without keys := by
  rw [without, List.filter_cons, without]
  by_cases member : field.1 ∈ keys <;> simp [member]

theorem without_set (member : key ∈ keys) :
    (fields.set key value).without keys = fields.without keys := by
  induction fields with
  | nil => rw [set, without_cons, if_pos member]
  | cons field fields ih =>
      rw [set_cons]
      split
      case isTrue same => rw [without_cons, without_cons, if_pos member, if_pos (same ▸ member)]
      case isFalse => rw [without_cons, without_cons, ih]

theorem without_set_of_notMem (other : key ∉ keys) :
    (fields.set key value).without keys = (fields.without keys).set key value := by
  induction fields with
  | nil => rw [set, without_cons, if_neg other, without, List.filter_nil, set]
  | cons field fields ih =>
      rw [set_cons, without_cons]
      split
      case isTrue same =>
        rw [without_cons, if_neg other, if_neg (same ▸ other), set_cons, if_pos same]
      case isFalse ne =>
        rw [without_cons, ih]
        split
        case isTrue => rfl
        case isFalse => rw [set_cons, if_neg ne]

theorem set_of_notMem {fields : Fields} {key : String} (value : Json)
    (absent : key ∉ fields.map (·.1)) : fields.set key value = fields ++ [(key, value)] := by
  induction fields with
  | nil => rfl
  | cons field fields ih =>
      rw [List.map_cons, List.mem_cons, not_or] at absent
      rw [set_cons, if_neg (Ne.symm absent.1), ih absent.2, List.cons_append]

theorem ofPairs_of_nodup {fields : Fields} (distinct : (fields.map (·.1)).Nodup) :
    ofPairs fields = fields := by
  have kept (done later : Fields) (distinct : ((done ++ later).map (·.1)).Nodup) :
      later.foldl (fun fields pair => fields.set pair.1 pair.2) done = done ++ later := by
    induction later generalizing done with
    | nil => rw [List.foldl_nil, List.append_nil]
    | cons pair later ih =>
        have absent : pair.1 ∉ done.map (·.1) := by
          rw [List.map_append, List.map_cons, List.nodup_append] at distinct
          exact fun member => distinct.2.2 _ member _ List.mem_cons_self rfl
        rw [← List.singleton_append, ← List.append_assoc] at distinct
        rw [List.foldl_cons, set_of_notMem pair.2 absent, ih _ distinct, List.append_assoc,
          List.singleton_append]
  exact kept [] fields distinct

theorem get?_of_mem {fields : Fields} {field : String × Json}
    (distinct : (fields.map (·.1)).Nodup) (member : field ∈ fields) :
    fields.get? field.1 = some field.2 := by
  induction fields with
  | nil => cases member
  | cons first fields ih =>
      rw [List.map_cons, List.nodup_cons] at distinct
      rw [get?_cons]
      obtain rfl | later := List.mem_cons.mp member
      · exact if_pos rfl
      · have other : first.1 ≠ field.1 := fun same => by
          rw [same] at distinct
          exact distinct.1 (List.mem_map_of_mem later)
        rw [if_neg other, ih distinct.2 later]

theorem map_fst_set (fields : Fields) (key : String) (value : Json) :
    (fields.set key value).map (·.1) =
      if key ∈ fields.map (·.1) then fields.map (·.1) else fields.map (·.1) ++ [key] := by
  induction fields with
  | nil => rfl
  | cons field fields ih =>
      rw [set_cons]
      by_cases here : field.1 = key
      · simp [here]
      · rw [if_neg here, List.map_cons, List.map_cons, ih]
        by_cases later : key ∈ fields.map (·.1)
        · rw [if_pos later, if_pos (List.mem_cons_of_mem _ later)]
        · rw [if_neg later, if_neg (List.not_mem_cons_of_ne_of_not_mem (Ne.symm here) later),
            List.cons_append]

theorem nodup_set {fields : Fields} (distinct : (fields.map (·.1)).Nodup) (key : String)
    (value : Json) : ((fields.set key value).map (·.1)).Nodup := by
  rw [map_fst_set]
  split
  case isTrue => exact distinct
  case isFalse absent =>
    refine List.nodup_append.mpr ⟨distinct, by simp, fun name member other last same => absent ?_⟩
    rwa [same, List.mem_singleton.mp last] at member

theorem mem_of_mem_set {fields : Fields} {key : String} {value : Json} {field : String × Json}
    (member : field ∈ fields.set key value) : field = (key, value) ∨ field ∈ fields := by
  induction fields with
  | nil => exact .inl (List.mem_singleton.mp member)
  | cons first fields ih =>
      rw [set_cons] at member
      split at member
      case isTrue =>
        obtain rfl | later := List.mem_cons.mp member
        · exact .inl rfl
        · exact .inr (List.mem_cons_of_mem _ later)
      case isFalse =>
        obtain rfl | later := List.mem_cons.mp member
        · exact .inr List.mem_cons_self
        · exact (ih later).imp_right (List.mem_cons_of_mem _)

theorem nodup_update {fields : Fields} (distinct : (fields.map (·.1)).Nodup) (changes : Fields) :
    ((fields.update changes).map (·.1)).Nodup := by
  induction changes generalizing fields with
  | nil => exact distinct
  | cons change changes ih => exact ih (nodup_set distinct change.1 change.2)

theorem mem_of_mem_update {fields changes : Fields} {field : String × Json}
    (member : field ∈ fields.update changes) : field ∈ fields ∨ field ∈ changes := by
  induction changes generalizing fields with
  | nil => exact .inl member
  | cons change changes ih =>
      obtain written | later := ih member
      · obtain rfl | before := mem_of_mem_set written
        · exact .inr List.mem_cons_self
        · exact .inl before
      · exact .inr (List.mem_cons_of_mem _ later)

end CallTimeline.Json.Fields
