import CallTimeline.Proofs.Source.Strip
import CallTimeline.Source.Settings

namespace CallTimeline.Source

open Body Text

/-! ## The scans

A line feed has no brace, so both scans see a line as the code that the file has there. -/

theorem opening?_cons (inComment : Bool) (limit : Nat) (line : List Char)
    (lines : List (List Char)) :
    opening? inComment (limit + 1) (line :: lines) =
      let (code, inComment) := strip inComment (chomp line)
      if '\x7b' ∈ code then some { lines := 1, balance := balance code, inComment }
      else (opening? inComment limit lines).map fun opening =>
        { opening with lines := opening.lines + 1 } := by
  obtain ⟨kept, isTerminator, line_eq⟩ := strip_line inComment line
  simp only [opening?, line_eq, isTerminator.contains_append, isTerminator.balance_append,
    List.contains_iff_mem]

theorem closing_cons (inComment : Bool) (open_ : Int) (limit : Nat) (line : List Char)
    (lines : List (List Char)) :
    closing inComment open_ (limit + 1) (line :: lines) =
      let (code, inComment) := strip inComment (chomp line)
      if open_ + balance code ≤ 0 then (1, true)
      else
        let (count, closed) := closing inComment (open_ + balance code) limit lines
        (count + 1, closed) := by
  obtain ⟨kept, isTerminator, line_eq⟩ := strip_line inComment line
  simp only [closing, line_eq, isTerminator.balance_append]

theorem opening?_eq_some {inComment : Bool} {limit : Nat} {lines : List (List Char)}
    {opening : Opening} (found : opening? inComment limit lines = some opening) :
    ∃ skipped first, codes inComment lines =
        skipped ++ first :: codes opening.inComment (lines.drop opening.lines) ∧
      (∀ code ∈ skipped, '\x7b' ∉ code) ∧ '\x7b' ∈ first ∧
      opening.lines = skipped.length + 1 ∧ opening.balance = balance first ∧
      opening.lines ≤ limit := by
  induction lines generalizing inComment limit opening with
  | nil => simp [opening?] at found
  | cons line lines ih =>
      cases limit with
      | zero => simp [opening?] at found
      | succ limit =>
          rw [opening?_cons] at found
          rw [codes]
          generalize strip inComment (chomp line) = stripped at found
          obtain ⟨code, after⟩ := stripped
          simp only at found
          split at found
          case isTrue opens =>
            cases found
            exact ⟨[], code, rfl, by simp, opens, rfl, rfl, Nat.le_add_left 1 limit⟩
          case isFalse unopened =>
            obtain ⟨later, later_eq, rfl⟩ := Option.map_eq_some_iff.mp found
            obtain ⟨skipped, first, codes_eq, none, opens, lines_eq, balance_eq, soon⟩ :=
              ih later_eq
            refine ⟨code :: skipped, first, congrArg _ codes_eq, ?_, opens, ?_, balance_eq,
              Nat.succ_le_succ soon⟩
            · exact List.forall_mem_cons.mpr ⟨unopened, none⟩
            · rw [lines_eq, List.length_cons]

theorem closing_eq_true {inComment : Bool} {open_ : Int} {limit count : Nat}
    {lines : List (List Char)} (found : closing inComment open_ limit lines = (count, true)) :
    ∃ counted rest, codes inComment lines = counted ++ rest ∧ counted.length = count ∧
      ClosesFirst open_ counted ∧ count ≤ limit := by
  induction lines generalizing inComment open_ limit count with
  | nil => simp [closing] at found
  | cons line lines ih =>
      cases limit with
      | zero => simp [closing] at found
      | succ limit =>
          rw [closing_cons] at found
          rw [codes]
          generalize strip inComment (chomp line) = stripped at found
          obtain ⟨code, after⟩ := stripped
          simp only at found
          split at found
          case isTrue closed =>
            cases found
            exact ⟨[code], codes after lines, rfl, rfl, .singleton closed, Nat.le_add_left 1 limit⟩
          case isFalse isOpen =>
            rcases later : closing after (open_ + balance code) limit lines with ⟨count, closed⟩
            simp only [later] at found
            cases found
            obtain ⟨counted, rest, codes_eq, length_eq, closes, soon⟩ := ih later
            exact ⟨code :: counted, rest, congrArg _ codes_eq, congrArg _ length_eq,
              closes.cons (Int.not_le.mp isOpen), Nat.succ_le_succ soon⟩

section

variable {inComment : Bool} {limit count : Nat} {lines : List (List Char)} {opening : Opening}

theorem balancesAt_of_opening (found : opening? inComment limit lines = some opening)
    (closed : opening.balance ≤ 0) : BalancesAt (codes inComment lines) opening.lines := by
  obtain ⟨skipped, first, codes_eq, unopened, opens, lines_eq, balance_eq, -⟩ :=
    opening?_eq_some found
  have closes : ClosesFirst 0 [first] := by
    apply ClosesFirst.singleton
    rw [← balance_eq, Int.zero_add]
    exact closed
  exact ⟨skipped, [first], _, ⟨codes_eq, unopened, ⟨first, rfl, opens⟩, closes⟩, lines_eq⟩

theorem balancesAt_of_closing (found : opening? inComment limit lines = some opening)
    (isOpen : ¬ opening.balance ≤ 0) {more : Nat}
    (closing_eq : closing opening.inComment opening.balance more (lines.drop opening.lines) =
      (count, true)) :
    BalancesAt (codes inComment lines) (opening.lines + count) := by
  obtain ⟨skipped, first, codes_eq, unopened, opens, lines_eq, balance_eq, -⟩ :=
    opening?_eq_some found
  obtain ⟨counted, rest, later_eq, length_eq, closes, -⟩ := closing_eq_true closing_eq
  rw [later_eq] at codes_eq
  rw [balance_eq] at isOpen closes
  -- The second scan begins with the balance of the opening line.
  have closes : ClosesFirst 0 (first :: counted) := by
    apply ClosesFirst.cons
    · rw [Int.zero_add]
      exact Int.not_le.mp isOpen
    · rwa [Int.zero_add]
  refine ⟨skipped, first :: counted, rest, ⟨codes_eq, unopened, ⟨first, rfl, opens⟩, closes⟩, ?_⟩
  rw [lines_eq, List.length_cons, length_eq]
  omega

theorem BalancesAt.ofLines_eq (h : BalancesAt (codes inComment lines) count) :
    ofLines (lines.take count) .complete =
      { text := String.ofList (lines.take count).flatten, lineCount := count
        status := .complete } := by
  obtain ⟨skipped, counted, rest, balances, rfl⟩ := h
  have bound := balances.length_le
  rw [length_codes] at bound
  rw [ofLines, List.length_take, Nat.min_eq_left bound]

theorem extract_complete {limits : Limits} {index : Nat}
    (complete : (extract limits lines (index + 1 : Nat)).status = .complete) :
    ∃ count, BalancesAt (codes false (lines.drop index)) count ∧
      extract limits lines (index + 1 : Nat) =
        { text := String.ofList ((lines.drop index).take count).flatten, lineCount := count
          status := .complete } := by
  have index_eq : (((index + 1 : Nat) : Int) - 1).toNat = index := by omega
  simp only [extract, index_eq] at complete ⊢
  split at complete
  case isTrue => cases complete
  case isFalse inside =>
    rw [if_neg inside]
    cases found : opening? false limits.lookahead.toNat (lines.drop index) with
    | none => simp [found, ofLines] at complete
    | some opening =>
        simp only [found] at complete ⊢
        split at complete
        case isTrue closed =>
          rw [if_pos closed]
          have balances := balancesAt_of_opening found closed
          exact ⟨_, balances, balances.ofLines_eq⟩
        case isFalse isOpen =>
          rw [if_neg isOpen]
          rcases closing_eq : closing opening.inComment opening.balance
            (limits.maxLines - opening.lines).toNat ((lines.drop index).drop opening.lines) with
            ⟨count, closed⟩
          simp only [closing_eq] at complete ⊢
          cases closed with
          | false => cases complete
          | true =>
              have balances := balancesAt_of_closing found isOpen closing_eq
              exact ⟨_, balances, balances.ofLines_eq⟩

end

theorem Settings.body_eq_extract {settings : Settings} {lines : List (List Char)} {start : Int}
    {body : Body} (inside : ¬ (start < 1 ∨ lines.length < start))
    (found : settings.body lines start = .ok body) :
    ∃ limits, settings.lookahead = some limits.lookahead ∧ body = extract limits lines start := by
  unfold Settings.body at found
  rw [if_neg inside] at found
  split at found
  case h_1 => cases found
  case h_2 lookahead ahead =>
    simp only at found
    split at found
    · cases found
    · split at found
      · cases found
      · refine ⟨_, ?_, (Except.ok.inj found).symm⟩
        exact ahead

theorem Settings.body_eq_ok {settings : Settings} {lines : List (List Char)} {start : Int}
    {body : Body} (found : settings.body lines start = .ok body) :
    ∃ limits, body = extract limits lines start := by
  by_cases inside : start < 1 ∨ lines.length < start
  · unfold Settings.body at found
    rw [if_pos inside] at found
    exact ⟨{}, (Except.ok.inj found).symm⟩
  · obtain ⟨limits, -, body_eq⟩ := Settings.body_eq_extract inside found
    exact ⟨limits, body_eq⟩

end CallTimeline.Source
