import CallTimeline.Proofs.Source.Opening

namespace CallTimeline.Source

open Body Text

/-- The line `o` is the first with an opening brace, and one of the first `limit` lines. -/
structure OpensOn (codes : List (List Char)) (limit o : Nat) : Prop where
  soon : o < limit
  opens : ∃ code ∈ codes[o]?, '\x7b' ∈ code
  earlier : ∀ i < o, ∀ code ∈ codes[i]?, '\x7b' ∉ code

def balanceOver (codes : List (List Char)) (o i : Nat) : Int :=
  balance ((codes.drop o).take (i + 1 - o)).flatten

/-- Counted from the line `o` on, the line `e` is the first that leaves no brace open. It is the
line `o` itself, or one of the first `limit` lines. -/
structure BalancesOn (codes : List (List Char)) (limit o e : Nat) : Prop where
  le : o ≤ e
  within : e = o ∨ e < limit
  inside : e < codes.length
  closed : balanceOver codes o e ≤ 0
  isOpen : ∀ i, o ≤ i → i < e → 0 < balanceOver codes o i

/-- The body of a function whose lines, and all that follow them, are `rest`. -/
inductive BodyOf (lookahead fallback maxLines : Nat) (rest : List (List Char)) : Body → Prop where
  | unopened (unopened : ∀ o, ¬ OpensOn (codes false rest) lookahead o) :
      BodyOf lookahead fallback maxLines rest (ofLines (rest.take fallback) .fallback)
  | complete {o e : Nat} (opens : OpensOn (codes false rest) lookahead o)
      (balances : BalancesOn (codes false rest) maxLines o e) :
      BodyOf lookahead fallback maxLines rest (ofLines (rest.take (e + 1)) .complete)
  | overrun {o : Nat} (opens : OpensOn (codes false rest) lookahead o)
      (unbalanced : ∀ e, ¬ BalancesOn (codes false rest) maxLines o e) :
      BodyOf lookahead fallback maxLines rest
        (ofLines (rest.take (max o (min rest.length maxLines - 1) + 1)) .overrun)

section

variable {codes : List (List Char)} {limit o o' e e' : Nat}

theorem OpensOn.unique (opens : OpensOn codes limit o) (opens' : OpensOn codes limit o') :
    o = o' := by
  have notBefore {o o' : Nat} (opens : OpensOn codes limit o) (opens' : OpensOn codes limit o') :
      ¬ o < o' := by
    intro lt
    obtain ⟨code, here, brace⟩ := opens.opens
    exact opens'.earlier o lt code here brace
  exact Nat.le_antisymm (Nat.le_of_not_lt (notBefore opens' opens))
    (Nat.le_of_not_lt (notBefore opens opens'))

theorem BalancesOn.unique (balances : BalancesOn codes limit o e)
    (balances' : BalancesOn codes limit o e') : e = e' := by
  have notBefore {e e' : Nat} (balances : BalancesOn codes limit o e)
      (balances' : BalancesOn codes limit o e') : ¬ e < e' := by
    intro lt
    have isOpen := balances'.isOpen e balances.le lt
    have closed := balances.closed
    omega
  exact Nat.le_antisymm (Nat.le_of_not_lt (notBefore balances' balances))
    (Nat.le_of_not_lt (notBefore balances balances'))

theorem BodyOf.unique {lookahead fallback maxLines : Nat} {rest : List (List Char)}
    {body body' : Body} (here : BodyOf lookahead fallback maxLines rest body)
    (here' : BodyOf lookahead fallback maxLines rest body') : body = body' := by
  cases here with
  | unopened unopened =>
      cases here' with
      | unopened => rfl
      | complete opens | overrun opens => exact absurd opens (unopened _)
  | complete opens balances =>
      cases here' with
      | unopened unopened => exact absurd opens (unopened _)
      | complete opens' balances' =>
          obtain rfl := opens.unique opens'
          rw [balances.unique balances']
      | overrun opens' unbalanced =>
          obtain rfl := opens.unique opens'
          exact absurd balances (unbalanced _)
  | overrun opens unbalanced =>
      cases here' with
      | unopened unopened => exact absurd opens (unopened _)
      | complete opens' balances =>
          obtain rfl := opens.unique opens'
          exact absurd balances (unbalanced _)
      | overrun opens' => rw [opens.unique opens']

end

theorem closing_eq_false {inComment : Bool} {open_ : Int} {limit count : Nat}
    {lines : List (List Char)} (found : closing inComment open_ limit lines = (count, false)) :
    count = min limit lines.length ∧
      ∀ i, 0 < i → i ≤ count → 0 < open_ + balance ((codes inComment lines).take i).flatten := by
  induction lines generalizing inComment open_ limit count with
  | nil =>
      rw [closing] at found
      cases found
      exact ⟨(Nat.min_zero limit).symm, fun i pos le => absurd pos (by omega)⟩
  | cons line lines ih =>
      cases limit with
      | zero =>
          rw [closing] at found
          cases found
          exact ⟨(Nat.zero_min _).symm, fun i pos le => absurd pos (by omega)⟩
      | succ limit =>
          rw [closing_cons] at found
          rw [codes]
          generalize strip inComment (chomp line) = stripped at found
          obtain ⟨code, after⟩ := stripped
          simp only at found
          split at found
          case isTrue => cases found
          case isFalse isOpen =>
            rcases later : closing after (open_ + balance code) limit lines with ⟨count', closed⟩
            simp only [later] at found
            cases found
            obtain ⟨count_eq, positive⟩ := ih later
            refine ⟨by simp only [List.length_cons]; omega, fun i pos le => ?_⟩
            cases i with
            | zero => exact absurd pos (Nat.lt_irrefl 0)
            | succ i =>
                rw [List.take_succ_cons, List.flatten_cons, balance_append, ← Int.add_assoc]
                cases i with
                | zero => simpa [balance_nil] using isOpen
                | succ i => exact positive (i + 1) (Nat.succ_pos i) (by omega)

section

variable {inComment : Bool} {limit : Nat} {lines : List (List Char)}

theorem not_opensOn (missing : opening? inComment limit lines = none) (o : Nat) :
    ¬ OpensOn (codes inComment lines) limit o := by
  rintro ⟨soon, ⟨code, here, brace⟩, -⟩
  obtain ⟨opening, found, -⟩ := opening?_of_getElem? here brace soon
  rw [missing] at found
  cases found

theorem opensOn_of_opening? {opening : Opening}
    (found : opening? inComment limit lines = some opening) :
    ∃ o first, opening.lines = o + 1 ∧ OpensOn (codes inComment lines) limit o ∧
      opening.balance = balance first ∧
      (codes inComment lines).drop o =
        first :: codes opening.inComment (lines.drop opening.lines) := by
  obtain ⟨skipped, first, codes_eq, unopened, opens, lines_eq, balance_eq, soon⟩ :=
    opening?_eq_some found
  refine ⟨skipped.length, first, lines_eq, ⟨by omega, ⟨first, ?_, opens⟩, ?_⟩, balance_eq, ?_⟩
  · rw [codes_eq, List.getElem?_append_right (Nat.le_refl _), Nat.sub_self]
    rfl
  · intro i before code here
    rw [codes_eq, List.getElem?_append_left before] at here
    exact unopened code (List.mem_of_getElem? here)
  · rw [codes_eq, List.drop_left]

end

section

variable {cs later : List (List Char)} {first : List Char} {o : Nat}

theorem balanceOver_add (from_opening : cs.drop o = first :: later) (i : Nat) :
    balanceOver cs o (o + i) = balance first + balance (later.take i).flatten := by
  have count : o + i + 1 - o = i + 1 := by omega
  rw [balanceOver, from_opening, count, List.take_succ_cons, List.flatten_cons, balance_append]

theorem length_of_drop (from_opening : cs.drop o = first :: later) :
    cs.length = o + 1 + later.length := by
  have := congrArg List.length from_opening
  simp only [List.length_drop, List.length_cons] at this
  omega

theorem balancesOn_self (limit : Nat) (from_opening : cs.drop o = first :: later)
    (closed : balance first ≤ 0) : BalancesOn cs limit o o where
  le := Nat.le_refl o
  within := .inl rfl
  inside := by
    have := length_of_drop from_opening
    omega
  closed := by
    have total := balanceOver_add from_opening 0
    rw [Nat.add_zero, List.take_zero, List.flatten_nil, balance_nil] at total
    omega
  isOpen i le lt := absurd lt (Nat.not_lt.mpr le)

variable {inComment : Bool} {limit count : Nat} {lines : List (List Char)}

theorem balancesOn_of_closing (from_opening : cs.drop o = first :: codes inComment lines)
    (isOpen : ¬ balance first ≤ 0)
    (found : closing inComment (balance first) (limit - (o + 1)) lines = (count, true)) :
    BalancesOn cs limit o (o + count) := by
  obtain ⟨counted, rest, codes_eq, rfl, closes, soon⟩ := closing_eq_true found
  have bound : counted.length ≤ lines.length := by
    have length_eq := congrArg List.length codes_eq
    rw [length_codes, List.length_append] at length_eq
    omega
  have some : counted ≠ [] := by
    rintro rfl
    exact isOpen (by simpa [balance_nil] using closes.closed)
  have one_le : 1 ≤ counted.length := List.length_pos_iff.mpr some
  have total := balanceOver_add from_opening
  have length_eq := length_of_drop from_opening
  rw [length_codes] at length_eq
  rw [codes_eq] at total
  refine ⟨Nat.le_add_right o _, .inr (by omega), by omega, ?_, fun i le lt => ?_⟩
  · rw [total, List.take_left]
    exact closes.closed
  · obtain ⟨j, rfl⟩ := Nat.exists_eq_add_of_le le
    rw [total, List.take_append_of_le_length (by omega)]
    cases j with
    | zero => simpa [balance_nil] using isOpen
    | succ j =>
        refine closes.isOpen _ (List.take_prefix _ _) (fun none => ?_) fun same => ?_
        · have := congrArg List.length none
          simp only [List.length_take, List.length_nil] at this
          omega
        · have := congrArg List.length same
          rw [List.length_take] at this
          omega

theorem not_balancesOn (from_opening : cs.drop o = first :: codes inComment lines)
    (isOpen : ¬ balance first ≤ 0)
    (found : closing inComment (balance first) (limit - (o + 1)) lines = (count, false)) (e : Nat) :
    ¬ BalancesOn cs limit o e := by
  rintro ⟨le, within, inside, closed, -⟩
  obtain ⟨count_eq, positive⟩ := closing_eq_false found
  have length_eq := length_of_drop from_opening
  rw [length_codes] at length_eq
  obtain ⟨i, rfl⟩ := Nat.exists_eq_add_of_le le
  rw [balanceOver_add from_opening] at closed
  cases i with
  | zero => exact isOpen (by simpa [balance_nil] using closed)
  | succ i =>
      have := positive (i + 1) (Nat.succ_pos i) (by omega)
      omega

end

theorem take_sliceLength {total start size : Nat} {lines : List (List Char)}
    (length_eq : lines.length = total - start) (inside : start < total) :
    lines.take (sliceLength total start (size : Int)) = lines.take size := by
  have stop : ¬ min (total : Int) (start + size) < 0 := by omega
  rw [sliceLength, if_neg stop, List.take_eq_take_iff]
  omega

theorem bodyOf_extract {lookahead fallback maxLines index : Nat} {lines : List (List Char)}
    (inside : index < lines.length) :
    BodyOf lookahead fallback maxLines (lines.drop index)
      (extract { lookahead, fallback, maxLines } lines (index + 1 : Nat)) := by
  have index_eq : (((index + 1 : Nat) : Int) - 1).toNat = index := by omega
  have within : ¬ (((index + 1 : Nat) : Int) < 1 ∨ lines.length < ((index + 1 : Nat) : Int)) := by
    omega
  simp only [extract, if_neg within, index_eq, Int.toNat_natCast]
  cases found : opening? false lookahead (lines.drop index) with
  | none =>
      simp only
      rw [take_sliceLength List.length_drop inside]
      exact .unopened (not_opensOn found)
  | some opening =>
      obtain ⟨o, first, lines_eq, opens, balance_eq, from_opening⟩ := opensOn_of_opening? found
      simp only [lines_eq, balance_eq]
      rw [lines_eq] at from_opening
      split
      case isTrue closed => exact .complete opens (balancesOn_self maxLines from_opening closed)
      case isFalse isOpen =>
        have limit_eq : ((maxLines : Int) - (o + 1 : Nat)).toNat = maxLines - (o + 1) := by omega
        rw [limit_eq]
        rcases counted : closing opening.inComment (balance first) (maxLines - (o + 1))
          ((lines.drop index).drop (o + 1)) with ⟨count, closed⟩
        cases closed with
        | true =>
            have balances := balancesOn_of_closing from_opening isOpen counted
            have stop : o + 1 + count = o + count + 1 := by omega
            simp only [if_true, stop]
            exact .complete opens balances
        | false =>
            have unbalanced := not_balancesOn from_opening isOpen counted
            have length_eq := length_of_drop from_opening
            rw [length_codes, length_codes] at length_eq
            have count_eq := (closing_eq_false counted).1
            have stop : o + 1 + count =
                max o (min (lines.drop index).length maxLines - 1) + 1 := by
              omega
            simp only [Bool.false_eq_true, if_false, stop]
            exact .overrun opens unbalanced

/-- With limits that are set and not negative, every line has a body. Outside the text it is empty,
and inside it is the one that counting the braces at the line ends gives. -/
theorem Settings.body_lineBalance {settings : Settings} {lookahead fallback maxLines : Nat}
    (ahead : settings.lookahead = some (lookahead : Int))
    (slice : settings.fallbackLines = some (fallback : Int))
    (limit : settings.maxBodyLines = some (maxLines : Int)) (lines : List (List Char))
    (start : Int) :
    ∃ body, settings.body lines start = .ok body ∧
      if start < 1 ∨ lines.length < start then body = ofLines [] .fallback
      else ∀ other,
        BodyOf lookahead fallback maxLines (lines.drop (start - 1).toNat) other ↔ other = body := by
  by_cases outside : start < 1 ∨ lines.length < start
  · exact ⟨_, if_pos outside, by rw [if_pos outside, extract, if_pos outside]⟩
  · obtain ⟨index, rfl⟩ : ∃ index : Nat, start = (index + 1 : Nat) :=
      ⟨(start - 1).toNat, by omega⟩
    have index_eq : (((index + 1 : Nat) : Int) - 1).toNat = index := by omega
    have described := @bodyOf_extract lookahead fallback maxLines index lines (by omega)
    refine ⟨extract { lookahead, fallback, maxLines } lines (index + 1 : Nat), ?_, ?_⟩
    · simp only [Settings.body, if_neg outside, ahead, slice, limit, Option.getD_some, reduceCtorEq,
        and_false, false_and, if_false]
    · rw [if_neg outside, index_eq]
      exact fun other => ⟨fun here => here.unique described, fun same => same ▸ described⟩

theorem Settings.body_lineBalance_overrun :
    let settings : Settings := { maxBodyLines := some 2 }
    let lines :=
      ["int f(void)\n".toList, "\x7b\n".toList, "\tg(\"\x7d\");\n".toList, "\x7d\n".toList]
    let body : Body := { text := "int f(void)\n\x7b\n", lineCount := 2, status := .overrun }
    settings.lookahead = some (5 : Nat) ∧ settings.fallbackLines = some (30 : Nat) ∧
      settings.maxBodyLines = some (2 : Nat) ∧ settings.body lines 1 = .ok body ∧
      BodyOf 5 30 2 lines body := by
  intro settings lines body
  obtain ⟨found, body_eq, described⟩ :=
    @Settings.body_lineBalance settings 5 30 2 rfl rfl rfl lines 1
  have computed : settings.body lines 1 = .ok body := by cbv
  obtain rfl : body = found := Except.ok.inj (computed.symm.trans body_eq)
  rw [if_neg (by decide)] at described
  exact ⟨rfl, rfl, rfl, computed, (described body).mpr rfl⟩

end CallTimeline.Source
