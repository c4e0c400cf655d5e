import CallTimeline.Proofs.Text.Trim
import CallTimeline.Source.Body
import Mathlib.Data.List.Infix

/-!
# Braces

Where the braces of a text close more than was opened before it, one of them is the first to do so,
and what stands before that one is paired (`exists_matches`). Counting braces at line ends only ends
on the line of the brace that matches an opening one just if no line end before it is met with all
braces closed and the rest of its line opens none (`BalancesAt.lastLine`).
-/

namespace CallTimeline.Source

open Body Text

/-! ## Counting -/

theorem balance_nil : balance [] = 0 := rfl

theorem balance_append (xs ys : List Char) : balance (xs ++ ys) = balance xs + balance ys := by
  simp only [balance, List.count_append]
  omega

theorem balance_cons (c : Char) (text : List Char) :
    balance (c :: text) =
      balance text + (if c = '\x7b' then 1 else 0) - (if c = '\x7d' then 1 else 0) := by
  by_cases opens : c = '\x7b'
  · subst opens
    simp [balance]
    omega
  · by_cases closes : c = '\x7d'
    · subst closes
      simp [balance]
      omega
    · simp [balance, opens, closes]

theorem balance_open (text : List Char) : balance ('\x7b' :: text) = balance text + 1 := by
  simp [balance_cons]

theorem balance_close (text : List Char) : balance ('\x7d' :: text) = balance text - 1 := by
  simp [balance_cons]

theorem balance_nonpos {text : List Char} (unopened : '\x7b' ∉ text) : balance text ≤ 0 := by
  rw [balance, List.count_eq_zero.mpr unopened]
  omega

structure Paired (text : List Char) : Prop where
  total : balance text = 0
  within : ∀ start, start <+: text → 0 ≤ balance start

theorem Paired.of_not_mem {text : List Char} (unopened : '\x7b' ∉ text) (unclosed : '\x7d' ∉ text) :
    Paired text := by
  have none (start : List Char) (initial : start <+: text) : balance start = 0 := by
    rw [balance, List.count_eq_zero.mpr fun member => unopened (initial.subset member),
      List.count_eq_zero.mpr fun member => unclosed (initial.subset member)]
    rfl
  exact ⟨none text List.prefix_rfl, fun start initial => Int.le_of_eq (none start initial).symm⟩

/-- `inside` stands between an opening brace before the text and the brace that matches it. -/
structure Matches (text inside behind : List Char) : Prop where
  text_eq : text = inside ++ '\x7d' :: behind
  paired : Paired inside

theorem exists_closing_of_lt {text : List Char} {depth : Nat}
    (less : balance text < -(depth : Int)) :
    ∃ inside behind, text = inside ++ '\x7d' :: behind ∧ balance inside = -(depth : Int) ∧
      ∀ start, start <+: inside → -(depth : Int) ≤ balance start := by
  induction text generalizing depth with
  | nil =>
      rw [balance_nil] at less
      omega
  | cons c text ih =>
      have at_start (depth : Nat) : ∀ start, start <+: ([] : List Char) →
          -(depth : Int) ≤ balance start := by
        intro start initial
        rw [List.prefix_nil.mp initial, balance_nil]
        omega
      -- `inner` is what may be closed behind the first character.
      have step (inner : Nat) (less : balance text < -(inner : Int))
          (shift : balance [c] = (inner : Int) - depth) :
          ∃ inside behind, c :: text = inside ++ '\x7d' :: behind ∧
            balance inside = -(depth : Int) ∧
            ∀ start, start <+: inside → -(depth : Int) ≤ balance start := by
        obtain ⟨inside, behind, rfl, total, within⟩ := ih less
        refine ⟨c :: inside, behind, rfl, ?_, ?_⟩
        · have := balance_append [c] inside
          rw [List.singleton_append] at this
          omega
        · intro start initial
          obtain rfl | ⟨start, rfl, shorter⟩ := List.prefix_cons_iff.mp initial
          · exact at_start depth [] List.prefix_rfl
          · have := balance_append [c] start
            rw [List.singleton_append] at this
            have := within start shorter
            omega
      by_cases opens : c = '\x7b'
      · subst opens
        rw [balance_open] at less
        exact step (depth + 1) (by omega) (by rw [balance_open, balance_nil]; omega)
      · by_cases closes : c = '\x7d'
        · subst closes
          rw [balance_close] at less
          cases depth with
          | zero => exact ⟨[], text, rfl, rfl, at_start 0⟩
          | succ depth =>
              exact step depth (by omega) (by rw [balance_close, balance_nil]; omega)
        · have same : balance [c] = 0 := by simp [balance_cons, opens, closes, balance_nil]
          have := balance_append [c] text
          rw [List.singleton_append] at this
          exact step depth (by omega) (by omega)

theorem exists_matches {text : List Char} (less : balance text < 0) :
    ∃ inside behind, Matches text inside behind := by
  obtain ⟨inside, behind, text_eq, total, within⟩ := @exists_closing_of_lt text 0 less
  exact ⟨inside, behind, text_eq, total, within⟩

/-! ## Lines -/

def ended (codes : List (List Char)) : List Char :=
  codes.flatMap (· ++ ['\n'])

theorem ended_append (xs ys : List (List Char)) : ended (xs ++ ys) = ended xs ++ ended ys :=
  List.flatMap_append

theorem balance_ended (codes : List (List Char)) :
    balance (ended codes) = balance codes.flatten := by
  induction codes with
  | nil => rfl
  | cons code codes ih =>
      have feed : balance ['\n'] = 0 := by decide
      rw [List.flatten_cons, ended, List.flatMap_cons, balance_append, balance_append,
        balance_append, feed, ← ih, Int.add_zero]
      rfl

section

variable {codes : List (List Char)} {start : List Char} {n : Nat}

theorem count_ended (oneLine : ∀ code ∈ codes, '\n' ∉ code) :
    (ended codes).count '\n' = codes.length := by
  induction codes with
  | nil => rfl
  | cons code codes ih =>
      have here : code.count '\n' = 0 := List.count_eq_zero.mpr (oneLine code List.mem_cons_self)
      have later := ih fun other member => oneLine other (List.mem_cons_of_mem code member)
      rw [ended] at later
      simp [ended, List.flatMap_cons, here, later]

theorem ended_take_prefix_ended (codes : List (List Char)) (n : Nat) :
    ended (codes.take n) <+: ended codes := by
  refine ⟨ended (codes.drop n), ?_⟩
  rw [← ended_append, List.take_append_drop]

theorem count_ended_take (oneLine : ∀ code ∈ codes, '\n' ∉ code) (bound : n ≤ codes.length) :
    (ended (codes.take n)).count '\n' = n := by
  rw [count_ended fun code member => oneLine code (List.mem_of_mem_take member),
    List.length_take, Nat.min_eq_left bound]

theorem ended_take_prefix_of_le (oneLine : ∀ code ∈ codes, '\n' ∉ code) (bound : n ≤ codes.length)
    (initial : start <+: ended codes) (le : n ≤ start.count '\n') :
    ended (codes.take n) <+: start := by
  have whole := ended_take_prefix_ended codes n
  rcases List.prefix_or_prefix_of_prefix whole initial with done | ⟨more, split⟩
  · exact done
  · have counted := count_ended_take oneLine bound
    rw [← split, List.count_append] at counted
    -- Nothing is left behind the last line feed.
    have noFeed : '\n' ∉ more := List.count_eq_zero.mp (by omega)
    rcases List.eq_nil_or_concat' more with rfl | ⟨others, last, rfl⟩
    · rw [← split, List.append_nil]
    · rcases List.eq_nil_or_concat' (codes.take n) with none | ⟨lines, line, taken⟩
      · simp [none, ended] at split
      · have ends : ended (codes.take n) = (ended lines ++ line) ++ ['\n'] := by
          rw [taken, ended_append, List.append_assoc]
          simp [ended]
        rw [ends, ← List.append_assoc] at split
        obtain ⟨-, same⟩ := List.append_inj' split rfl
        rw [List.singleton_inj.mp same] at noFeed
        exact absurd (by simp) noFeed

theorem prefix_ended_take_of_lt (oneLine : ∀ code ∈ codes, '\n' ∉ code) (bound : n ≤ codes.length)
    (initial : start <+: ended codes) (lt : start.count '\n' < n) :
    start <+: ended (codes.take n) := by
  have whole := ended_take_prefix_ended codes n
  rcases List.prefix_or_prefix_of_prefix whole initial with shorter | done
  · have fewer := shorter.sublist.count_le '\n'
    rw [count_ended_take oneLine bound] at fewer
    omega
  · exact done

theorem exists_remainder {text : List Char} (oneLine : ∀ code ∈ codes, '\n' ∉ code)
    (split : ended codes = start ++ text) (inside : start.count '\n' < codes.length) :
    ∃ part remainder, start = ended (codes.take (start.count '\n')) ++ part ∧
      codes[start.count '\n'] = part ++ remainder ∧
      text = remainder ++ '\n' :: ended (codes.drop (start.count '\n' + 1)) := by
  have bound := Nat.le_of_lt inside
  obtain ⟨part, start_eq⟩ :=
    ended_take_prefix_of_le oneLine bound ⟨text, split.symm⟩ (Nat.le_refl _)
  have counted := count_ended_take oneLine bound
  generalize n_eq : start.count '\n' = n at *
  have noFeed : '\n' ∉ part := by
    rw [← start_eq, List.count_append, counted] at n_eq
    exact List.count_eq_zero.mp (by omega)
  have whole : ended codes =
      ended (codes.take n) ++ (codes[n] ++ '\n' :: ended (codes.drop (n + 1))) := by
    have next : ended (codes.drop n) = codes[n] ++ '\n' :: ended (codes.drop (n + 1)) := by
      rw [List.drop_eq_getElem_cons inside, ended, List.flatMap_cons, List.append_assoc]
      rfl
    rw [← next, ← ended_append, List.take_append_drop]
  rw [whole, ← start_eq, List.append_assoc] at split
  rcases List.append_eq_append_iff.mp (List.append_cancel_left split) with
    ⟨beyond, part_eq, beyond_eq⟩ | ⟨remainder, line_eq, text_eq⟩
  · cases beyond with
    | nil =>
        exact ⟨part, [], start_eq.symm, by simpa using part_eq.symm, by simpa using beyond_eq.symm⟩
    | cons c beyond =>
        rw [List.cons_append, List.cons.injEq] at beyond_eq
        exact absurd (by simp [part_eq, ← beyond_eq.1]) noFeed
  · exact ⟨part, remainder, start_eq.symm, line_eq, text_eq⟩

theorem balance_ended_take_succ {text : List Char} (oneLine : ∀ code ∈ codes, '\n' ∉ code)
    (split : ended codes = start ++ text) (ne : text ≠ []) :
    start.count '\n' < codes.length ∧
      balance (ended (codes.take (start.count '\n' + 1))) =
        balance start + balance (text.takeWhile (· != '\n')) := by
  have inside : start.count '\n' < codes.length := by
    by_contra beyond
    have whole :=
      ended_take_prefix_of_le oneLine (Nat.le_refl _) ⟨text, split.symm⟩ (Nat.le_of_not_lt beyond)
    rw [List.take_length, split] at whole
    have := whole.length_le
    rw [List.length_append] at this
    exact ne (List.eq_nil_of_length_eq_zero (by omega))
  obtain ⟨part, remainder, start_eq, line_eq, text_eq⟩ := exists_remainder oneLine split inside
  have oneRemainder : '\n' ∉ remainder := fun member =>
    oneLine _ (List.getElem_mem inside) (by simp [line_eq, member])
  have until_feed : text.takeWhile (· != '\n') = remainder := by
    rw [text_eq]
    apply takeWhile_append_of_head?
    · intro c member
      simpa using fun feed : c = '\n' => oneRemainder (feed ▸ member)
    · simp
  refine ⟨inside, ?_⟩
  have total := congrArg balance start_eq
  rw [balance_append] at total
  rw [List.take_add_one, List.getElem?_eq_getElem inside, ended_append, until_feed, total,
    balance_append, Option.toList_some, balance_ended [_], List.flatten_singleton, line_eq,
    balance_append]
  omega

theorem ended_take_eq (oneLine : ∀ code ∈ codes, '\n' ∉ code)
    (initial : start ++ ['\n'] <+: ended codes) :
    ended (codes.take (start.count '\n' + 1)) = start ++ ['\n'] := by
  have feeds : (start ++ ['\n']).count '\n' = start.count '\n' + 1 := by simp
  have bound : start.count '\n' + 1 ≤ codes.length := by
    rw [← feeds, ← count_ended oneLine]
    exact initial.sublist.count_le _
  have upper := ended_take_prefix_of_le oneLine bound initial (Nat.le_of_eq feeds.symm)
  have lower := prefix_ended_take_of_lt oneLine bound ((List.prefix_append _ _).trans initial)
    (Nat.lt_succ_self _)
  rcases List.prefix_concat_iff.mp upper with whole | shorter
  · exact whole
  · have fewer := shorter.sublist.count_le '\n'
    rw [count_ended_take oneLine bound] at fewer
    omega

end

/-! ## Counting at line ends -/

/-- With `open_` braces open before them, the lines are the first that leave none open. -/
structure ClosesFirst (open_ : Int) (counted : List (List Char)) : Prop where
  closed : open_ + balance counted.flatten ≤ 0
  isOpen : ∀ start, start <+: counted → start ≠ [] → start ≠ counted →
    0 < open_ + balance start.flatten

theorem ClosesFirst.singleton {open_ : Int} {code : List Char} (closed : open_ + balance code ≤ 0) :
    ClosesFirst open_ [code] := by
  refine ⟨by simpa using closed, fun start initial ne less => ?_⟩
  rcases List.prefix_cons_iff.mp initial with rfl | ⟨start, rfl, shorter⟩
  · exact absurd rfl ne
  · rw [List.prefix_nil.mp shorter] at less
    exact absurd rfl less

theorem ClosesFirst.cons {open_ : Int} {code : List Char} {counted : List (List Char)}
    (isOpen : 0 < open_ + balance code) (h : ClosesFirst (open_ + balance code) counted) :
    ClosesFirst open_ (code :: counted) := by
  refine ⟨?_, fun start initial ne less => ?_⟩
  · rw [List.flatten_cons, balance_append, ← Int.add_assoc]
    exact h.closed
  · rcases List.prefix_cons_iff.mp initial with rfl | ⟨start, rfl, shorter⟩
    · exact absurd rfl ne
    · rw [List.flatten_cons, balance_append, ← Int.add_assoc]
      by_cases first : start = []
      · simpa [first, balance_nil] using isOpen
      · exact h.isOpen start shorter first fun same => less (same ▸ rfl)

/-- `counted` are the first lines, from one with an opening brace on, that do not open more braces
than they close. -/
structure Balances (codes skipped counted rest : List (List Char)) : Prop where
  codes_eq : codes = skipped ++ (counted ++ rest)
  unopened : ∀ code ∈ skipped, '\x7b' ∉ code
  opens : ∃ first ∈ counted.head?, '\x7b' ∈ first
  closes : ClosesFirst 0 counted

/-- No line ends behind an opening brace with all braces closed. -/
def OpenAtLineEnds (text : List Char) : Prop :=
  ∀ start, start ++ ['\n'] <+: text → '\x7b' ∈ start → 0 < balance start

section

variable {codes skipped counted rest : List (List Char)} {head tail : List Char} {n : Nat}

theorem Balances.take_eq (h : Balances codes skipped counted rest) (le : n ≤ counted.length) :
    codes.take (skipped.length + n) = skipped ++ counted.take n := by
  rw [h.codes_eq, List.take_length_add_append, List.take_append_of_le_length le]

theorem Balances.length_le (h : Balances codes skipped counted rest) :
    skipped.length + counted.length ≤ codes.length := by
  simp [h.codes_eq]

theorem mem_ended {c : Char} (ne : c ≠ '\n') {codes : List (List Char)} :
    c ∈ ended codes ↔ ∃ code ∈ codes, c ∈ code := by
  simp [ended, ne]

theorem Balances.balance_skipped (h : Balances codes skipped counted rest) (paired : Paired head)
    (split : ended codes = head ++ '\x7b' :: tail) : balance (ended skipped) = 0 := by
  have unopened : '\x7b' ∉ ended skipped := by
    rw [mem_ended (by decide)]
    rintro ⟨code, member, opens⟩
    exact h.unopened code member opens
  have initial : ended skipped <+: head ++ '\x7b' :: tail := by
    rw [← split, h.codes_eq, ended_append]
    exact List.prefix_append _ _
  have before : ended skipped <+: head := by
    have whole := List.prefix_append head ('\x7b' :: tail)
    rcases List.prefix_or_prefix_of_prefix initial whole with done | ⟨more, eq⟩
    · exact done
    · cases more with
      | nil => rw [← eq, List.append_nil]
      | cons c more =>
          rw [← eq, List.prefix_append_right_inj] at initial
          rw [(List.cons_prefix_cons.mp initial).1] at eq
          exact absurd (by simp [← eq]) unopened
  have := paired.within _ before
  have := balance_nonpos unopened
  omega

theorem Balances.balance_take (h : Balances codes skipped counted rest) (paired : Paired head)
    (split : ended codes = head ++ '\x7b' :: tail) (le : n ≤ counted.length) :
    balance (ended (codes.take (skipped.length + n))) = balance (counted.take n).flatten := by
  rw [h.take_eq le, ended_append, balance_append, h.balance_skipped paired split,
    balance_ended (counted.take n), Int.zero_add]

theorem Balances.pos (h : Balances codes skipped counted rest) (paired : Paired head)
    (split : ended codes = head ++ '\x7b' :: tail) (after : skipped.length < n)
    (before : n < skipped.length + counted.length) : 0 < balance (ended (codes.take n)) := by
  obtain ⟨i, rfl⟩ := Nat.exists_eq_add_of_lt after
  rw [Nat.add_assoc, h.balance_take paired split (by omega)]
  rw [← Int.zero_add (balance _)]
  refine h.closes.isOpen _ (List.take_prefix _ _) (fun empty => ?_) fun same => ?_
  · have := congrArg List.length empty
    rw [List.length_take, List.length_nil] at this
    omega
  · have := congrArg List.length same
    rw [List.length_take] at this
    omega

theorem Balances.nonpos (h : Balances codes skipped counted rest) (paired : Paired head)
    (split : ended codes = head ++ '\x7b' :: tail) :
    balance (ended (codes.take (skipped.length + counted.length))) ≤ 0 := by
  rw [h.balance_take paired split (Nat.le_refl _), List.take_length, ← Int.zero_add (balance _)]
  exact h.closes.closed

theorem Balances.mem_take_iff (h : Balances codes skipped counted rest) :
    '\x7b' ∈ ended (codes.take n) ↔ skipped.length < n := by
  rw [mem_ended (by decide)]
  constructor
  · rintro ⟨code, member, opens⟩
    by_contra early
    rw [h.codes_eq, List.take_append_of_le_length (by omega)] at member
    exact h.unopened code (List.mem_of_mem_take member) opens
  · intro after
    obtain ⟨first, is_first, opens⟩ := h.opens
    obtain ⟨later, rfl⟩ := List.head?_eq_some_iff.mp is_first
    obtain ⟨i, rfl⟩ := Nat.exists_eq_add_of_lt after
    refine ⟨first, ?_, opens⟩
    rw [h.codes_eq, Nat.add_assoc, List.take_length_add_append]
    simp

theorem Balances.count_lt (h : Balances codes skipped counted rest)
    (oneLine : ∀ code ∈ codes, '\n' ∉ code) (paired : Paired head)
    (split : ended codes = head ++ '\x7b' :: tail) (isOpen : OpenAtLineEnds head) :
    head.count '\n' < skipped.length + counted.length := by
  by_contra early
  have initial : head <+: ended codes := ⟨_, split.symm⟩
  have before := ended_take_prefix_of_le oneLine h.length_le initial (by omega)
  have opens : '\x7b' ∈ ended (codes.take (skipped.length + counted.length)) := by
    obtain ⟨first, is_first, -⟩ := h.opens
    have := List.length_pos_of_mem (List.mem_of_mem_head? is_first)
    exact h.mem_take_iff.mpr (by omega)
  have closed := h.nonpos paired split
  obtain ⟨start, ends⟩ : ∃ start, ended (codes.take (skipped.length + counted.length)) =
      start ++ ['\n'] := by
    rcases List.eq_nil_or_concat' (codes.take (skipped.length + counted.length)) with
      none | ⟨lines, line, taken⟩
    · simp [none, ended] at opens
    · exact ⟨ended lines ++ line, by simp [taken, ended]⟩
  rw [ends] at before opens closed
  have feed : balance ['\n'] = 0 := by decide
  have := isOpen start before (by simpa using opens)
  rw [balance_append, feed] at closed
  omega

theorem ended_take_of_lt {c : Char} (ne : c ≠ '\n') (oneLine : ∀ code ∈ codes, '\n' ∉ code)
    (split : ended codes = head ++ c :: tail) (bound : n ≤ codes.length)
    (lt : head.count '\n' < n) :
    ∃ part, ended (codes.take n) = head ++ c :: part ∧ part <+: tail := by
  have whole := ended_take_prefix_ended codes n
  have initial : head ++ [c] <+: ended codes := ⟨tail, by rw [split]; simp⟩
  obtain ⟨part, same⟩ := prefix_ended_take_of_lt oneLine bound initial (by simpa [ne] using lt)
  rw [List.append_assoc, List.singleton_append] at same
  rw [← same, split, List.prefix_append_right_inj, List.cons_prefix_cons] at whole
  exact ⟨part, same.symm, whole.2⟩

theorem Balances.exists_matches (h : Balances codes skipped counted rest)
    (oneLine : ∀ code ∈ codes, '\n' ∉ code) (paired : Paired head)
    (split : ended codes = head ++ '\x7b' :: tail) (isOpen : OpenAtLineEnds head) :
    ∃ inside behind, Matches tail inside behind := by
  have reached := h.count_lt oneLine paired split isOpen
  have closed := h.nonpos paired split
  obtain ⟨part, lines_eq, more, rfl⟩ :=
    ended_take_of_lt (by decide) oneLine split h.length_le reached
  rw [lines_eq, balance_append, balance_open, paired.total] at closed
  obtain ⟨inside, behind, rfl, matching⟩ := Source.exists_matches (show balance part < 0 by omega)
  exact ⟨inside, behind ++ more, by simp, matching⟩

theorem balance_at_match {inside behind : List Char} (oneLine : ∀ code ∈ codes, '\n' ∉ code)
    (paired : Paired head) (split : ended codes = head ++ '\x7b' :: tail)
    (closes : Matches tail inside behind) :
    (head ++ '\x7b' :: inside).count '\n' < codes.length ∧
      balance (ended (codes.take ((head ++ '\x7b' :: inside).count '\n' + 1))) =
        balance (behind.takeWhile (· != '\n')) := by
  have split' : ended codes = (head ++ '\x7b' :: inside) ++ '\x7d' :: behind := by
    simp [split, closes.text_eq]
  obtain ⟨within, last⟩ := balance_ended_take_succ oneLine split' (List.cons_ne_nil _ _)
  rw [List.takeWhile_cons_of_pos (by decide), balance_close, balance_append, balance_open,
    paired.total, closes.paired.total] at last
  exact ⟨within, by omega⟩

theorem pos_before_match {inside behind : List Char} (oneLine : ∀ code ∈ codes, '\n' ∉ code)
    (paired : Paired head) (split : ended codes = head ++ '\x7b' :: tail)
    (closes : Matches tail inside behind) (after : head.count '\n' < n)
    (le : n ≤ (head ++ '\x7b' :: inside).count '\n') : 0 < balance (ended (codes.take n)) := by
  have initial : head ++ '\x7b' :: inside <+: ended codes :=
    ⟨'\x7d' :: behind, by simp [split, closes.text_eq]⟩
  have bound : n ≤ codes.length := by
    have := (balance_at_match oneLine paired split closes).1
    omega
  obtain ⟨part, lines_eq, -⟩ := ended_take_of_lt (by decide) oneLine split bound after
  have upper := ended_take_prefix_of_le oneLine bound initial le
  rw [lines_eq, List.prefix_append_right_inj, List.cons_prefix_cons] at upper
  have := closes.paired.within part upper.2
  rw [lines_eq, balance_append, balance_open, paired.total]
  omega

theorem Balances.length_eq_iff {inside behind : List Char} (h : Balances codes skipped counted rest)
    (oneLine : ∀ code ∈ codes, '\n' ∉ code) (paired : Paired head)
    (split : ended codes = head ++ '\x7b' :: tail) (closes : Matches tail inside behind) :
    skipped.length + counted.length = (head ++ '\x7b' :: inside).count '\n' + 1 ↔
      OpenAtLineEnds head ∧ balance (behind.takeWhile (· != '\n')) ≤ 0 := by
  have feeds : head.count '\n' ≤ (head ++ '\x7b' :: inside).count '\n' :=
    (List.prefix_append _ _).sublist.count_le _
  obtain ⟨within, last⟩ := balance_at_match oneLine paired split closes
  have isOpen {n : Nat} := @pos_before_match codes head tail n _ _ oneLine paired split closes
  have closed := h.nonpos paired split
  generalize (head ++ '\x7b' :: inside).count '\n' = m at *
  constructor
  · intro reaches
    rw [reaches] at closed
    refine ⟨fun start initial opens => ?_, by omega⟩
    have lines_eq := ended_take_eq oneLine (initial.trans ⟨_, split.symm⟩)
    have after : skipped.length < start.count '\n' + 1 := by
      rw [← h.mem_take_iff, lines_eq]
      exact List.mem_append_left _ opens
    have fewer : start.count '\n' + 1 ≤ head.count '\n' := by
      simpa using initial.sublist.count_le '\n'
    have pos := h.pos paired split after (by omega)
    have feed : balance ['\n'] = 0 := by decide
    rwa [lines_eq, balance_append, feed, Int.add_zero] at pos
  · rintro ⟨ends, remainder⟩
    have reached := h.count_lt oneLine paired split ends
    have atLeast : m < skipped.length + counted.length := by
      by_contra early
      have := isOpen reached (by omega)
      omega
    have atMost : skipped.length + counted.length ≤ m + 1 := by
      by_contra late
      obtain ⟨part, lines_eq, -⟩ :=
        ended_take_of_lt (by decide) oneLine split (n := m + 1) (by omega) (by omega)
      have after : skipped.length < m + 1 := by
        rw [← h.mem_take_iff, lines_eq]
        simp
      have := h.pos paired split after (by omega)
      omega
    omega

end

/-- The first `count` lines end where, from the first line with an opening brace on, their braces
first balance. -/
def BalancesAt (codes : List (List Char)) (count : Nat) : Prop :=
  ∃ skipped counted rest, Balances codes skipped counted rest ∧
    count = skipped.length + counted.length

/-- How the last of `count` lines stands to the brace that matches the one between `head` and
`tail`. -/
structure LastLine (head tail : List Char) (count : Nat) : Prop where
  exists_matches : OpenAtLineEnds head → ∃ inside behind, Matches tail inside behind
  eq_iff : ∀ inside behind, Matches tail inside behind →
    (count = (head ++ '\x7b' :: inside).count '\n' + 1 ↔
      OpenAtLineEnds head ∧ balance (behind.takeWhile (· != '\n')) ≤ 0)

theorem BalancesAt.lastLine {codes : List (List Char)} {head tail : List Char} {count : Nat}
    (h : BalancesAt codes count) (oneLine : ∀ code ∈ codes, '\n' ∉ code) (paired : Paired head)
    (split : ended codes = head ++ '\x7b' :: tail) : LastLine head tail count := by
  obtain ⟨skipped, counted, rest, balances, rfl⟩ := h
  exact ⟨balances.exists_matches oneLine paired split,
    fun _ _ => balances.length_eq_iff oneLine paired split⟩

end CallTimeline.Source
