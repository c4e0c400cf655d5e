import Mathlib.Data.List.Basic
import Mathlib.Data.List.Forall2

namespace CallTimeline

variable {α β ε : Type}

theorem ok_bind (value : α) (next : α → Except ε β) :
    (.ok value >>= next : Except ε β) = next value := rfl

theorem pure_eq_ok {value result : α} : (pure value : Except ε α) = .ok result ↔ value = result :=
  ⟨Except.ok.inj, congrArg Except.ok⟩

theorem of_bind_ok {first : Except ε α} {next : α → Except ε β} {result : β}
    (h : first >>= next = .ok result) : ∃ value, first = .ok value ∧ next value = .ok result := by
  cases first with
  | error fault => cases h
  | ok value => exact ⟨value, rfl, h⟩

theorem bind_eq_ok {first : Except ε α} {next : α → Except ε β} {result : β} :
    first >>= next = .ok result ↔ ∃ value, first = .ok value ∧ next value = .ok result := by
  constructor
  · exact of_bind_ok
  · rintro ⟨value, rfl, later⟩
    exact later

theorem of_map_ok {first : Except ε α} {f : α → β} {result : β} (h : first.map f = .ok result) :
    ∃ value, first = .ok value ∧ f value = result := by
  cases first with
  | error fault => cases h
  | ok value => exact ⟨value, rfl, Except.ok.inj h⟩

theorem map_eq_ok {first : Except ε α} {f : α → β} {result : β} :
    first.map f = .ok result ↔ ∃ value, first = .ok value ∧ f value = result := by
  constructor
  · exact of_map_ok
  · rintro ⟨value, rfl, rfl⟩
    rfl

theorem toOption_eq_some {result : Except ε α} {value : α} :
    result.toOption = some value ↔ result = .ok value := by
  cases result <;> simp [Except.toOption]

theorem length_of_mapM_ok {f : α → Except ε β} {xs : List α} {ys : List β}
    (h : xs.mapM f = .ok ys) : ys.length = xs.length := by
  induction xs generalizing ys with
  | nil =>
      cases h
      rfl
  | cons x xs ih =>
      rw [List.mapM_cons] at h
      obtain ⟨y, -, h⟩ := of_bind_ok h
      obtain ⟨zs, later, h⟩ := of_bind_ok h
      cases h
      rw [List.length_cons, List.length_cons, ih later]

theorem mapM_map_eq_map_mapM {γ δ : Type} {encode : α → γ} {encode' : β → δ} {f : α → Except ε β}
    {g : γ → Except ε δ} {xs : List α} (same : ∀ x ∈ xs, g (encode x) = (f x).map encode') :
    (xs.map encode).mapM g = (xs.mapM f).map (List.map encode') := by
  induction xs with
  | nil => rfl
  | cons x xs ih =>
      have later := ih fun y member => same y (List.mem_cons_of_mem x member)
      rw [List.map_cons, List.mapM_cons, List.mapM_cons, same x List.mem_cons_self, later]
      cases f x with
      | error fault => rfl
      | ok y => cases xs.mapM f <;> rfl

theorem mapM_cons_eq_ok {f : α → Except ε β} {x : α} {xs : List α} {ys : List β} :
    (x :: xs).mapM f = .ok ys ↔ ∃ y, f x = .ok y ∧ ∃ zs, xs.mapM f = .ok zs ∧ ys = y :: zs := by
  rw [List.mapM_cons, bind_eq_ok]
  refine exists_congr fun y => and_congr_right fun _ => bind_eq_ok.trans ?_
  refine exists_congr fun zs => and_congr_right fun _ => ?_
  exact ⟨fun same => (Except.ok.inj same).symm, fun same => congrArg _ same.symm⟩

theorem mapM_append_eq_ok {f : α → Except ε β} {xs ys : List α} {zs : List β} :
    (xs ++ ys).mapM f = .ok zs ↔
      ∃ front, xs.mapM f = .ok front ∧ ∃ back, ys.mapM f = .ok back ∧ zs = front ++ back := by
  rw [List.mapM_append, bind_eq_ok]
  refine exists_congr fun front => and_congr_right fun _ => bind_eq_ok.trans ?_
  refine exists_congr fun back => and_congr_right fun _ => ?_
  exact ⟨fun same => (Except.ok.inj same).symm, fun same => congrArg _ same.symm⟩

theorem mapM_bind_mapM {γ : Type} {f : α → Except ε β} {g : β → Except ε γ} {h : α → Except ε γ}
    (same : ∀ x z, f x >>= g = .ok z ↔ h x = .ok z) (xs : List α) (zs : List γ) :
    xs.mapM f >>= List.mapM g = .ok zs ↔ xs.mapM h = .ok zs := by
  induction xs generalizing zs with
  | nil => rfl
  | cons x xs ih =>
      simp only [bind_eq_ok] at same ih
      simp only [bind_eq_ok, mapM_cons_eq_ok, ← same, ← ih]
      constructor
      · rintro ⟨_, ⟨y, here, ys, later, rfl⟩, done⟩
        obtain ⟨z, next, zs, rest, rfl⟩ := mapM_cons_eq_ok.mp done
        exact ⟨z, ⟨y, here, next⟩, zs, ⟨ys, later, rest⟩, rfl⟩
      · rintro ⟨z, ⟨y, here, next⟩, zs, ⟨ys, later, rest⟩, rfl⟩
        exact ⟨_, ⟨y, here, ys, later, rfl⟩, mapM_cons_eq_ok.mpr ⟨z, next, zs, rest, rfl⟩⟩

theorem mapM_of_mapM_ok {γ : Type} {f : α → Except ε β} {g : α → Except ε γ}
    {g' : β → Except ε γ} {xs : List α} {ys : List β}
    (same : ∀ x y, f x = .ok y → g' y = g x) (h : xs.mapM f = .ok ys) :
    ys.mapM g' = xs.mapM g := by
  induction xs generalizing ys with
  | nil =>
      cases h
      rfl
  | cons x xs ih =>
      obtain ⟨y, here, ys, later, rfl⟩ := mapM_cons_eq_ok.mp h
      rw [List.mapM_cons, List.mapM_cons, same x y here, ih later]

theorem map_of_mapM_ok {γ : Type} {f : α → Except ε β} {key : α → γ} {key' : β → γ}
    {xs : List α} {ys : List β} (same : ∀ x y, f x = .ok y → key' y = key x)
    (h : xs.mapM f = .ok ys) : ys.map key' = xs.map key := by
  induction xs generalizing ys with
  | nil =>
      cases h
      rfl
  | cons x xs ih =>
      obtain ⟨y, here, ys, later, rfl⟩ := mapM_cons_eq_ok.mp h
      rw [List.map_cons, List.map_cons, same x y here, ih later]

theorem countP_of_mapM_ok {f : α → Except ε β} {p : α → Bool} {p' : β → Bool} {xs : List α}
    {ys : List β} (same : ∀ x y, f x = .ok y → p' y = p x) (h : xs.mapM f = .ok ys) :
    ys.countP p' = xs.countP p := by
  have kinds := congrArg (List.countP id) (map_of_mapM_ok same h)
  simpa only [List.countP_map, Function.id_comp] using kinds

theorem filterMap_of_mapM_ok {γ : Type} {f : α → Except ε β} {g : α → Option γ}
    {g' : β → Option γ} {xs : List α} {ys : List β} (same : ∀ x y, f x = .ok y → g' y = g x)
    (h : xs.mapM f = .ok ys) : ys.filterMap g' = xs.filterMap g := by
  have given := congrArg (List.filterMap id) (map_of_mapM_ok same h)
  simpa only [List.filterMap_map, Function.id_comp] using given

theorem mapM_eq_ok_map {f : α → Except ε β} {g : α → β} {xs : List α}
    (each : ∀ x ∈ xs, f x = .ok (g x)) : xs.mapM f = .ok (xs.map g) := by
  induction xs with
  | nil => rfl
  | cons x xs ih =>
      rw [List.mapM_cons, each x List.mem_cons_self,
        ih fun y member => each y (List.mem_cons_of_mem x member)]
      rfl

theorem mapM_ok_of_forall {f : α → Except ε β} {xs : List α}
    (each : ∀ x ∈ xs, ∃ y, f x = .ok y) : ∃ ys, xs.mapM f = .ok ys := by
  induction xs with
  | nil => exact ⟨[], rfl⟩
  | cons x xs ih =>
      obtain ⟨y, here⟩ := each x List.mem_cons_self
      obtain ⟨ys, later⟩ := ih fun z member => each z (List.mem_cons_of_mem x member)
      exact ⟨y :: ys, by rw [List.mapM_cons, here, later]; rfl⟩

theorem exists_of_mapM_ok {f : α → Except ε β} {xs : List α} {ys : List β} {x : α}
    (h : xs.mapM f = .ok ys) (member : x ∈ xs) : ∃ y, f x = .ok y := by
  induction xs generalizing ys with
  | nil => cases member
  | cons head xs ih =>
      obtain ⟨y, here, zs, later, rfl⟩ := mapM_cons_eq_ok.mp h
      obtain rfl | among := List.mem_cons.mp member
      · exact ⟨y, here⟩
      · exact ih later among

theorem exists_of_mem_mapM_ok {f : α → Except ε β} {xs : List α} {ys : List β} {y : β}
    (h : xs.mapM f = .ok ys) (member : y ∈ ys) : ∃ x ∈ xs, f x = .ok y := by
  induction xs generalizing ys with
  | nil =>
      cases h
      cases member
  | cons x xs ih =>
      obtain ⟨z, here, zs, later, rfl⟩ := mapM_cons_eq_ok.mp h
      obtain rfl | among := List.mem_cons.mp member
      · exact ⟨x, List.mem_cons_self, here⟩
      · obtain ⟨x', found, same⟩ := ih later among
        exact ⟨x', List.mem_cons_of_mem _ found, same⟩

theorem exists_mapM_ok {f : α → Except ε β} {xs : List α} :
    (∃ ys, xs.mapM f = .ok ys) ↔ ∀ x ∈ xs, ∃ y, f x = .ok y :=
  ⟨fun ⟨_, h⟩ _ member => exists_of_mapM_ok h member, mapM_ok_of_forall⟩

theorem mapM_eq_ok_iff {f : α → Except ε β} {xs : List α} {ys : List β} :
    xs.mapM f = .ok ys ↔ List.Forall₂ (fun x y => f x = .ok y) xs ys := by
  induction xs generalizing ys with
  | nil =>
      rw [List.forall₂_nil_left_iff, List.mapM_nil]
      exact ⟨fun same => (Except.ok.inj same).symm, fun same => congrArg Except.ok same.symm⟩
  | cons x xs ih =>
      rw [mapM_cons_eq_ok, List.forall₂_cons_left_iff]
      refine exists_congr fun y => ?_
      rw [← exists_and_left]
      exact exists_congr fun zs => by rw [ih]

theorem forall₂_of_mapM_ok {γ δ : Type} {encode : α → γ} {encode' : β → δ} {f : γ → Except ε δ}
    {related : α → β → Prop} {xs : List α} {zs : List δ}
    (each : ∀ x ∈ xs, ∀ z, f (encode x) = .ok z → ∃ y, z = encode' y ∧ related x y)
    (h : (xs.map encode).mapM f = .ok zs) :
    ∃ ys : List β, zs = ys.map encode' ∧ List.Forall₂ related xs ys := by
  induction xs generalizing zs with
  | nil =>
      cases h
      exact ⟨[], rfl, .nil⟩
  | cons x xs ih =>
      obtain ⟨_, here, rest, later, rfl⟩ := mapM_cons_eq_ok.mp h
      obtain ⟨y, rfl, relates⟩ := each x List.mem_cons_self _ here
      obtain ⟨ys, rfl, all⟩ := ih (fun z member => each z (List.mem_cons_of_mem x member)) later
      exact ⟨y :: ys, rfl, .cons relates all⟩

theorem mapM_take_ok {f : α → Except ε β} {xs : List α} {ys : List β} (h : xs.mapM f = .ok ys)
    (count : Nat) : (xs.take count).mapM f = .ok (ys.take count) := by
  induction xs generalizing ys count with
  | nil =>
      cases h
      cases count <;> rfl
  | cons x xs ih =>
      rw [List.mapM_cons] at h
      obtain ⟨y, here, h⟩ := of_bind_ok h
      obtain ⟨zs, later, h⟩ := of_bind_ok h
      cases h
      cases count with
      | zero => rfl
      | succ count =>
          rw [List.take_succ_cons, List.mapM_cons, here, ih later]
          rfl

theorem flatMapM_eq_ok_flatMap {f : α → Except ε (List β)} {g : α → List β} {xs : List α}
    (each : ∀ x ∈ xs, f x = .ok (g x)) : xs.flatMapM f = .ok (xs.flatMap g) := by
  induction xs with
  | nil => rfl
  | cons x xs ih =>
      rw [List.flatMapM_cons, each x List.mem_cons_self,
        ih fun y member => each y (List.mem_cons_of_mem x member)]
      rfl

theorem flatMapM_eq_ok_nil {f : α → Except ε (List β)} {xs : List α}
    (none : ∀ x ∈ xs, f x = .ok []) : xs.flatMapM f = .ok [] := by
  rw [@flatMapM_eq_ok_flatMap _ _ _ f (fun _ => []) xs none, List.flatMap_eq_nil_iff.mpr]
  exact fun _ _ => rfl

theorem mem_of_flatMapM_ok {f : α → Except ε (List β)} {xs : List α} {ys : List β} {y : β}
    (h : xs.flatMapM f = .ok ys) (member : y ∈ ys) : ∃ x ∈ xs, ∃ zs, f x = .ok zs ∧ y ∈ zs := by
  induction xs generalizing ys with
  | nil =>
      cases h
      cases member
  | cons x xs ih =>
      rw [List.flatMapM_cons] at h
      obtain ⟨zs, here, h⟩ := of_bind_ok h
      obtain ⟨rest, later, h⟩ := of_bind_ok h
      cases h
      rcases List.mem_append.mp member with inHere | inLater
      · exact ⟨x, List.mem_cons_self, zs, here, inHere⟩
      · obtain ⟨x, among, found⟩ := ih later inLater
        exact ⟨x, List.mem_cons_of_mem _ among, found⟩

/-- Every fault that a reading can come to is allowed. -/
def FaultsIn (allowed : ε → Prop) (reading : Except ε α) : Prop :=
  ∀ fault, reading = .error fault → allowed fault

section

variable {allowed allowed' : ε → Prop}

theorem faultsIn_ok (value : α) : FaultsIn allowed (.ok value) := nofun

theorem faultsIn_error {fault : ε} (holds : allowed fault) :
    FaultsIn allowed (.error fault : Except ε α) := by
  rintro _ ⟨⟩
  exact holds

theorem FaultsIn.mono {reading : Except ε α} (reading_in : FaultsIn allowed reading)
    (weaker : ∀ fault, allowed fault → allowed' fault) : FaultsIn allowed' reading :=
  fun fault faulty => weaker fault (reading_in fault faulty)

theorem FaultsIn.bind {first : Except ε α} {next : α → Except ε β}
    (first_in : FaultsIn allowed first)
    (next_in : ∀ value, first = .ok value → FaultsIn allowed (next value)) :
    FaultsIn allowed (first >>= next) := by
  cases first with
  | error fault => exact faultsIn_error (first_in fault rfl)
  | ok value => exact next_in value rfl

theorem FaultsIn.mapM {f : α → Except ε β} {xs : List α}
    (each : ∀ x ∈ xs, FaultsIn allowed (f x)) : FaultsIn allowed (xs.mapM f) := by
  induction xs with
  | nil => exact faultsIn_ok []
  | cons x xs ih =>
      rw [List.mapM_cons]
      refine (each x List.mem_cons_self).bind fun y _ => ?_
      refine (ih fun z member => each z (List.mem_cons_of_mem x member)).bind fun ys _ => ?_
      exact faultsIn_ok (y :: ys)

end

end CallTimeline
