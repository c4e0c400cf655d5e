import CallTimeline.Text.Blank
import CallTimeline.Text.Digit
import CallTimeline.Text.Search
import Mathlib.Data.List.Basic
import Mathlib.Data.List.TakeDrop
import Mathlib.Data.List.TakeWhile
import Mathlib.Tactic.Ring

namespace CallTimeline.Text

variable {p : Char → Bool} {xs ys : List Char}

theorem takeWhile_append_of_head? (hx : ∀ c ∈ xs, p c = true) (hy : ∀ c ∈ ys.head?, p c = false) :
    (xs ++ ys).takeWhile p = xs := by
  rw [List.takeWhile_append_of_pos hx]
  cases ys with
  | nil => simp
  | cons y ys => simp [hy y rfl]

theorem dropWhile_of_head? (hy : ∀ c ∈ ys.head?, p c = false) : ys.dropWhile p = ys := by
  cases ys with
  | nil => rfl
  | cons y ys => simp [hy y rfl]

theorem dropWhile_append_of_head? (hx : ∀ c ∈ xs, p c = true) (hy : ∀ c ∈ ys.head?, p c = false) :
    (xs ++ ys).dropWhile p = ys := by
  rw [List.dropWhile_append_of_pos hx, dropWhile_of_head? hy]

theorem span_append (hx : ∀ c ∈ xs, p c = true) (hy : ∀ c ∈ ys.head?, p c = false) :
    (xs ++ ys).span p = (xs, ys) := by
  rw [List.span_eq_takeWhile_dropWhile, takeWhile_append_of_head? hx hy,
    dropWhile_append_of_head? hx hy]

theorem dropEndWhile_of_getLast? (h : ∀ c ∈ xs.getLast?, p c = false) : dropEndWhile p xs = xs := by
  rw [dropEndWhile, dropWhile_of_head? (by simpa using h), List.reverse_reverse]

theorem dropEndWhile_append_of_forall (h : ∀ c ∈ ys, p c = true) :
    dropEndWhile p (xs ++ ys) = dropEndWhile p xs := by
  rw [dropEndWhile, List.reverse_append, List.dropWhile_append_of_pos (by simpa using h),
    dropEndWhile]

theorem getLast?_dropEndWhile {c : Char} (last : c ∈ (dropEndWhile p xs).getLast?) :
    p c = false := by
  have first : (xs.reverse.dropWhile p).head? = some c := by
    simpa [dropEndWhile] using last
  simpa [first] using List.head?_dropWhile_not p xs.reverse

theorem dropEndWhile_prefix (p : Char → Bool) (xs : List Char) : dropEndWhile p xs <+: xs := by
  rw [dropEndWhile, ← List.reverse_suffix, List.reverse_reverse]
  exact List.dropWhile_suffix p

theorem exists_dropEndWhile (p : Char → Bool) (xs : List Char) :
    ∃ ends, xs = dropEndWhile p xs ++ ends ∧ ∀ c ∈ ends, p c = true := by
  refine ⟨(xs.reverse.takeWhile p).reverse, ?_, ?_⟩
  · rw [dropEndWhile, ← List.reverse_append, List.takeWhile_append_dropWhile, List.reverse_reverse]
  · intro c member
    exact List.mem_takeWhile_imp (List.mem_reverse.mp member)

theorem mem_dropWhile {c : Char} (member : c ∈ xs) (kept : p c = false) : c ∈ xs.dropWhile p := by
  rw [← List.takeWhile_append_dropWhile (p := p) (l := xs)] at member
  rcases List.mem_append.mp member with skipped | left
  · rw [List.mem_takeWhile_imp skipped] at kept
    cases kept
  · exact left

theorem mem_dropEndWhile {c : Char} (member : c ∈ xs) (kept : p c = false) :
    c ∈ dropEndWhile p xs := by
  obtain ⟨ends, xs_eq, dropped⟩ := exists_dropEndWhile p xs
  rw [xs_eq] at member
  rcases List.mem_append.mp member with left | gone
  · exact left
  · rw [dropped c gone] at kept
    cases kept

theorem head?_dropEndWhile {c : Char} (kept : p c = false) (xs : List Char) :
    (dropEndWhile p (c :: xs)).head? = some c := by
  obtain ⟨ends, initial⟩ := dropEndWhile_prefix p (c :: xs)
  cases left : dropEndWhile p (c :: xs) with
  | nil =>
      have kept : c ∈ dropEndWhile p (c :: xs) := mem_dropEndWhile List.mem_cons_self kept
      rw [left] at kept
      cases kept
  | cons d rest =>
      rw [left] at initial
      rw [List.head?_cons, (List.cons.inj initial).1]

theorem dropEndWhile_append_of_ne_nil (some : dropEndWhile p ys ≠ []) :
    dropEndWhile p (xs ++ ys) = xs ++ dropEndWhile p ys := by
  rw [dropEndWhile, ne_eq, List.reverse_eq_nil_iff] at some
  rw [dropEndWhile, dropEndWhile, List.reverse_append, List.dropWhile_append,
    if_neg (by rwa [List.isEmpty_iff]),
    List.reverse_append, List.reverse_reverse]

theorem cutAt?_append {separator : Char} (h : separator ∉ xs) :
    cutAt? separator (xs ++ separator :: ys) = some (xs, ys) := by
  induction xs with
  | nil => simp [cutAt?]
  | cons x xs ih =>
      have ne : x ≠ separator := fun e => h (e ▸ List.mem_cons_self)
      simp [cutAt?, ne, ih fun m => h (List.mem_cons_of_mem _ m)]

theorem cutAt?_eq_none {separator : Char} (h : separator ∉ xs) : cutAt? separator xs = none := by
  induction xs with
  | nil => rfl
  | cons x xs ih =>
      have ne : x ≠ separator := fun e => h (e ▸ List.mem_cons_self)
      simp [cutAt?, ne, ih fun m => h (List.mem_cons_of_mem _ m)]

theorem eq_append_of_cutAt? {separator : Char} {text left right : List Char}
    (h : cutAt? separator text = some (left, right)) :
    text = left ++ separator :: right ∧ separator ∉ left := by
  induction text generalizing left with
  | nil => cases h
  | cons c rest ih =>
      rw [cutAt?] at h
      split at h
      case isTrue here =>
        cases h
        exact ⟨congrArg (· :: _) (beq_iff_eq.mp here), List.not_mem_nil⟩
      case isFalse other =>
        obtain ⟨⟨left', _⟩, found, same⟩ := Option.map_eq_some_iff.mp h
        cases same
        obtain ⟨rfl, free⟩ := ih found
        refine ⟨rfl, List.not_mem_cons_of_ne_of_not_mem ?_ free⟩
        exact fun same => other (beq_iff_eq.mpr same.symm)

theorem words_append (filled : xs ≠ []) (printed : ∀ c ∈ xs, isBlank c = false)
    (edge : ∀ c ∈ ys.head?, isBlank c = true) : words (xs ++ ys) = xs :: words ys := by
  induction xs with
  | nil => exact absurd rfl filled
  | cons x xs ih =>
      have here : isBlank x = false := printed x List.mem_cons_self
      cases xs with
      | nil => simp [words, here, Option.all_eq_true_iff_get, edge]
      | cons y more =>
          have next : isBlank y = false := printed y (by simp)
          have rest : words (y :: (more ++ ys)) = (y :: more) :: words ys :=
            ih (by simp) fun c member => printed c (List.mem_cons_of_mem _ member)
          rw [List.cons_append, List.cons_append, words]
          simp [here, next, rest]

theorem words_of_forall (ne : xs ≠ []) (h : ∀ c ∈ xs, isBlank c = false) : words xs = [xs] := by
  simpa [words] using @words_append xs [] ne h (by simp)

theorem words_eq_nil (h : ∀ c ∈ xs, isBlank c = true) : words xs = [] := by
  induction xs with
  | nil => rfl
  | cons x xs ih =>
      rw [words, if_pos (h x List.mem_cons_self)]
      exact ih fun c hc => h c (List.mem_cons_of_mem x hc)

def blankCodes : List Nat :=
  [9, 10, 11, 12, 13, 28, 29, 30, 31, 32, 0x85, 0xA0, 0x1680, 0x2000, 0x2001, 0x2002, 0x2003,
    0x2004, 0x2005, 0x2006, 0x2007, 0x2008, 0x2009, 0x200A, 0x2028, 0x2029, 0x202F, 0x205F, 0x3000]

theorem toNat_mem_blankCodes {c : Char} (blank : isBlank c = true) : c.toNat ∈ blankCodes := by
  simp only [isBlank, Bool.or_eq_true, Bool.and_eq_true, decide_eq_true_eq, beq_iff_eq] at blank
  simp only [blankCodes, List.mem_cons, List.not_mem_nil, or_false]
  omega

theorem digitValue?_of_isDigit {c : Char} (h : c.isDigit = true) :
    digitValue? c = some (c.toNat - '0'.toNat) := by
  have bounds := Char.isDigit_iff_toNat.mp h
  have small : c.toNat < 0x80 := Nat.lt_of_le_of_lt bounds.2 (by decide)
  simp [digitValue?, small, h]

theorem isDigit_of_isDigit {c : Char} (h : c.isDigit = true) : isDigit c = true := by
  simp [isDigit, digitValue?_of_isDigit h]

theorem isBlank_of_digit {c : Char} (h : isDigit c = true) : isBlank c = false := by
  have table : ∀ n ∈ blankCodes, isDigit (Char.ofNat n) = false := by decide +kernel
  refine Bool.eq_false_iff.mpr fun blank => ?_
  have of_code := table c.toNat (toNat_mem_blankCodes blank)
  rw [Char.ofNat_toNat, h] at of_code
  cases of_code

theorem isDigit_of_mem_toDigits {c : Char} {n : Nat} (h : c ∈ Nat.toDigits 10 n) :
    c.isDigit = true :=
  Nat.isDigit_of_mem_toDigits (by decide) (by decide) h

theorem digitsValue_toDigits (n : Nat) : digitsValue (Nat.toDigits 10 n) = n := by
  calc digitsValue (Nat.toDigits 10 n) = Nat.ofDigitChars 10 (Nat.toDigits 10 n) 0 := by
        rw [digitsValue, Nat.ofDigitChars_eq_foldl]
        refine List.foldl_ext _ _ _ fun value c hc => ?_
        rw [digitValue?_of_isDigit (isDigit_of_mem_toDigits hc), Option.getD_some]
    _ = n := Nat.ofDigitChars_ten_toDigits

theorem digitsValue_append (xs ys : List Char) :
    digitsValue (xs ++ ys) = digitsValue xs * 10 ^ ys.length + digitsValue ys := by
  have behind (value : Nat) : ys.foldl (fun value c => 10 * value + (digitValue? c).getD 0) value =
      value * 10 ^ ys.length + digitsValue ys := by
    induction ys generalizing value with
    | nil => simp [digitsValue]
    | cons y ys ih =>
        rw [digitsValue, List.foldl_cons, List.foldl_cons, ih, ih (10 * 0 + _), List.length_cons,
          Nat.pow_succ]
        ring
  rw [digitsValue, List.foldl_append, ← digitsValue, behind]

theorem digitsValue_replicate (count : Nat) : digitsValue (List.replicate count '0') = 0 := by
  induction count with
  | zero => rfl
  | succ count ih =>
      rw [List.replicate_succ', digitsValue_append, ih, Nat.zero_mul, Nat.zero_add]
      rfl

theorem digitsValue_lt (h : ∀ c ∈ xs, c.isDigit = true) : digitsValue xs < 10 ^ xs.length := by
  induction xs with
  | nil => decide
  | cons x xs ih =>
      have first := h x List.mem_cons_self
      have below : digitsValue [x] < 10 := by
        have bounds := Char.isDigit_iff_toNat.mp first
        have high : x.toNat ≤ 57 := bounds.2
        simp only [digitsValue, List.foldl_cons, List.foldl_nil, digitValue?_of_isDigit first,
          Option.getD_some]
        have : '0'.toNat = 48 := rfl
        omega
      have rest := ih fun c member => h c (List.mem_cons_of_mem x member)
      have scaled := Nat.mul_le_mul_right (10 ^ xs.length) (Nat.succ_le_of_lt below)
      rw [Nat.succ_mul] at scaled
      rw [← List.singleton_append, digitsValue_append, List.length_append, List.length_singleton,
        Nat.add_comm 1, Nat.pow_succ']
      omega

end CallTimeline.Text
