import CallTimeline.Json.Writer
import CallTimeline.Json.Reader
import CallTimeline.Proofs.Number.Shortest
import CallTimeline.Proofs.Text.Trim
import Mathlib.Data.List.TakeWhile

namespace CallTimeline

open Text

namespace Double

/-! ## Significant digits -/

section

variable {d : Decimal}

theorem toDigits_eq_significant (d : Decimal) :
    ∃ zeros, Nat.toDigits 10 d.digits = (significant d).1 ++ List.replicate zeros '0' := by
  refine ⟨((Nat.toDigits 10 d.digits).reverse.takeWhile (· == '0')).length, ?_⟩
  have zeros : (Nat.toDigits 10 d.digits).reverse.takeWhile (· == '0') =
      List.replicate ((Nat.toDigits 10 d.digits).reverse.takeWhile (· == '0')).length '0' := by
    refine List.eq_replicate_iff.mpr ⟨rfl, fun c member => ?_⟩
    exact eq_of_beq (List.mem_takeWhile_imp (p := (· == '0')) member)
  conv_lhs => rw [← List.reverse_reverse (Nat.toDigits 10 d.digits),
    ← List.takeWhile_append_dropWhile (p := (· == '0')) (l := (Nat.toDigits 10 d.digits).reverse),
    List.reverse_append, zeros, List.reverse_replicate]
  rfl

theorem isDigit_of_mem_significant {c : Char} (member : c ∈ (significant d).1) :
    c.isDigit = true := by
  obtain ⟨zeros, split⟩ := toDigits_eq_significant d
  exact isDigit_of_mem_toDigits (n := d.digits) (split ▸ List.mem_append_left _ member)

theorem value_eq_significant (d : Decimal) :
    d.value = digitsValue (significant d).1 *
      10 ^ ((significant d).2 - (significant d).1.length + 1 : Int) := by
  obtain ⟨zeros, split⟩ := toDigits_eq_significant d
  have digits : d.digits = digitsValue (significant d).1 * 10 ^ zeros := by
    rw [← digitsValue_toDigits d.digits, split, digitsValue_append, digitsValue_replicate,
      List.length_replicate, Nat.add_zero]
  have place : (significant d).2 - (significant d).1.length + 1 = zeros + d.exponent := by
    have length := congrArg List.length split
    rw [List.length_append, List.length_replicate] at length
    have first : (significant d).2 = d.exponent + (Nat.toDigits 10 d.digits).length - 1 := rfl
    omega
  rw [Decimal.value, place, zpow_add₀ (by norm_num), zpow_natCast, digits]
  push_cast
  ring

theorem head_toDigits {n : Nat} (positive : 0 < n) : (Nat.toDigits 10 n).head? ≠ some '0' := by
  intro zero
  obtain ⟨rest, split⟩ := List.head?_eq_some_iff.mp zero
  have digits := digitsValue_toDigits n
  have below := @digitsValue_lt rest fun c member =>
    isDigit_of_mem_toDigits (n := n) (split ▸ List.mem_cons_of_mem _ member)
  have length := length_toDigits positive
  have log := Nat.pow_log_le_self 10 positive.ne'
  rw [split] at digits length
  rw [← List.singleton_append, digitsValue_append] at digits
  rw [← Nat.succ.inj length, ← digits, show digitsValue ['0'] = 0 from rfl] at log
  omega

theorem significant_eq_cons (positive : 0 < d.digits) :
    ∃ first rest, (significant d).1 = first :: rest ∧ first ≠ '0' := by
  obtain ⟨zeros, split⟩ := toDigits_eq_significant d
  have head := head_toDigits positive
  cases kept : (significant d).1 with
  | nil =>
      have digits := digitsValue_toDigits d.digits
      rw [split, kept, List.nil_append, digitsValue_replicate] at digits
      omega
  | cons first rest =>
      rw [split, kept, List.cons_append, List.head?_cons] at head
      exact ⟨first, rest, rfl, fun same => head (congrArg some same)⟩

end

end Double

namespace Json

/-! ## Parts of a number -/

def EndsNumber (rest : List Char) : Prop :=
  ∀ c ∈ rest.head?, c.isDigit = false ∧ c ≠ '.' ∧ c ≠ 'e' ∧ c ≠ 'E'

section

variable {group rest : List Char} (filled : ∀ c ∈ group, c.isDigit = true)

include filled in
theorem digits_append (ends : ∀ c ∈ rest.head?, c.isDigit = false) :
    digits (group ++ rest) = (group, rest) :=
  span_append filled ends

theorem fractionPart_of_head? (other : rest.head? ≠ some '.') :
    fractionPart rest = (none, rest) := by
  unfold fractionPart
  split
  case h_1 => exact absurd rfl other
  case h_2 => rfl

include filled in
theorem fractionPart_point (ne : group ≠ []) (ends : ∀ c ∈ rest.head?, c.isDigit = false) :
    fractionPart ('.' :: (group ++ rest)) = (some group, rest) := by
  rw [fractionPart, digits_append filled ends]
  split
  case h_1 empty => exact absurd (congrArg Prod.fst empty) ne
  case h_2 same => cases same; rfl

theorem exponentPart_of_head? (other : ∀ c ∈ rest.head?, c ≠ 'e' ∧ c ≠ 'E') :
    exponentPart rest = (none, rest) := by
  cases rest with
  | nil => rfl
  | cons c rest =>
      obtain ⟨ne, ne'⟩ := other c rfl
      rw [exponentPart, if_neg (by simp [ne, ne'])]

include filled in
theorem exponentPart_of_sign (negative : Bool) (ne : group ≠ [])
    (ends : ∀ c ∈ rest.head?, c.isDigit = false) :
    exponentPart ('e' :: (if negative then '-' else '+') :: (group ++ rest)) =
      (some (if negative then -(digitsValue group : Int) else digitsValue group), rest) := by
  have sign : Number.splitSign ((if negative then '-' else '+') :: (group ++ rest)) =
      (negative, group ++ rest) := by
    cases negative <;> rfl
  rw [exponentPart, if_pos (by decide), sign]
  simp only [digits_append filled ends]

def readBehind (dialect : Dialect) (negative : Bool) (whole rest : List Char) : Reading Json :=
  let (fraction, rest) := fractionPart rest
  let (exponent, rest) := exponentPart rest
  if fraction.isNone && exponent.isNone then
    let magnitude := digitsValue whole
    if dialect.digitBound.any (· < whole.length) then .error (.tooLong whole.length)
    else if dialect.magnitudeBound.any (· < magnitude) then malformed
    else .ok (.int (if negative then -magnitude else magnitude), rest)
  else
    let places := fraction.getD []
    let value := Double.ofDecimal negative (digitsValue (whole ++ places))
      (exponent.getD 0 - places.length)
    if !dialect.nonFinite && !Double.isFinite value then malformed
    else .ok (.real value, rest)

include filled in
theorem readNumber_append (dialect : Dialect) (negative : Bool)
    (plain : group = ['0'] ∨ ∃ c ∈ group.head?, c ≠ '0')
    (ends : ∀ c ∈ rest.head?, c.isDigit = false) :
    readNumber dialect negative (group ++ rest) = readBehind dialect negative group rest := by
  unfold readNumber
  rcases plain with rfl | ⟨first, head, ne⟩
  · rfl
  · obtain ⟨others, rfl⟩ := List.head?_eq_some_iff.mp head
    have whole := digits_append filled ends
    rw [List.cons_append] at whole ⊢
    split
    case h_1 found =>
      split at found
      case h_1 same => exact absurd (List.cons.inj same).1 ne
      case h_2 =>
        rw [whole] at found
        cases found
        rfl

def readReal (dialect : Dialect) (negative : Bool) (digits : Nat) (place : Int)
    (rest : List Char) : Reading Json :=
  let value := Double.ofDecimal negative digits place
  if !dialect.nonFinite && !Double.isFinite value then malformed else .ok (.real value, rest)

theorem readBehind_real (dialect : Dialect) (negative : Bool) {whole rest' rest'' : List Char}
    {fraction : Option (List Char)} {exponent : Option Int}
    (fractions : fractionPart rest = (fraction, rest'))
    (exponents : exponentPart rest' = (exponent, rest''))
    (real : fraction.isSome ∨ exponent.isSome) :
    readBehind dialect negative whole rest =
      readReal dialect negative (digitsValue (whole ++ fraction.getD []))
        (exponent.getD 0 - (fraction.getD []).length) rest'' := by
  have mixed : (fraction.isNone && exponent.isNone) = false := by
    cases fraction <;> cases exponent <;> simp_all
  unfold readBehind
  simp only [fractions, exponents, mixed]
  rfl

variable (dialect : Dialect) (negative : Bool) {whole : List Char} (ends : EndsNumber rest)

include filled ends

theorem readNumber_point (digits : ∀ c ∈ whole, c.isDigit = true)
    (plain : whole = ['0'] ∨ ∃ c ∈ whole.head?, c ≠ '0') (ne : group ≠ []) :
    readNumber dialect negative (whole ++ '.' :: (group ++ rest)) =
      readReal dialect negative (digitsValue (whole ++ group)) (-group.length) rest := by
  rw [readNumber_append digits dialect negative plain (by rintro c ⟨⟩; rfl),
    readBehind_real dialect negative
      (fractionPart_point filled ne fun c head => (ends c head).1)
      (exponentPart_of_head? fun c head => (ends c head).2.2) (.inl rfl)]
  rw [Option.getD_some, Option.getD_none, Int.zero_sub]

theorem readNumber_exponent {c : Char} (digit : c.isDigit = true) (first : c ≠ '0')
    {places : List Char} (digits : ∀ c ∈ places, c.isDigit = true) (below : Bool)
    (ne : group ≠ []) :
    readNumber dialect negative
        ([c] ++ ((if places.isEmpty then [] else '.' :: places) ++
          'e' :: (if below then '-' else '+') :: (group ++ rest))) =
      readReal dialect negative (digitsValue (c :: places))
        ((if below then -(digitsValue group : Int) else digitsValue group) - places.length)
        rest := by
  have single : ∀ d ∈ [c], d.isDigit = true := by simpa using digit
  have exponents := exponentPart_of_sign filled below ne fun c head => (ends c head).1
  rw [readNumber_append single dialect negative (.inr ⟨c, rfl, first⟩)
    (by cases places <;> rintro c ⟨⟩ <;> rfl)]
  cases places with
  | nil =>
      rw [List.isEmpty_nil, if_pos rfl, List.nil_append, readBehind_real dialect negative
        (fractionPart_of_head? (by simp)) exponents (.inr rfl)]
      rfl
  | cons place places =>
      rw [List.isEmpty_cons, if_neg Bool.false_ne_true, List.cons_append,
        readBehind_real dialect negative
          (fractionPart_point digits (List.cons_ne_nil _ _) (by rintro c ⟨⟩; rfl)) exponents
          (.inr rfl)]
      rfl

end

theorem isDigit_of_mem_zeros {count : Nat} {c : Char} (member : c ∈ List.replicate count '0') :
    c.isDigit = true := by
  rw [List.eq_of_mem_replicate member]
  rfl

def around (digits : List Char) (places : Nat) : List Char × List Char :=
  let whole := digits.take places
  let fraction := digits.drop places
  (whole ++ List.replicate (places - whole.length) '0',
    if fraction.isEmpty then ['0'] else fraction)

theorem value_around (digits : List Char) (places : Nat) :
    (digitsValue ((around digits places).1 ++ (around digits places).2) *
        10 ^ (-(around digits places).2.length : Int) : ℚ) =
      digitsValue digits * 10 ^ (places - digits.length : Int) := by
  unfold around
  simp only [List.isEmpty_iff, List.drop_eq_nil_iff]
  split
  case isTrue short =>
    rw [List.take_of_length_le short, List.append_assoc, ← List.replicate_succ', digitsValue_append,
      digitsValue_replicate, List.length_replicate, List.length_singleton, Nat.add_zero,
      show (places - digits.length : Int) = (places - digits.length : Nat) by omega, zpow_natCast]
    push_cast
    rw [pow_succ]
    field_simp
  case isFalse long =>
    rw [List.length_take_of_le (by omega), Nat.sub_self, List.replicate_zero, List.append_nil,
      List.take_append_drop, List.length_drop]
    congr 2
    omega

/-- In front of `rest`, the text is read as a real number of this value. -/
def ReadsAs (dialect : Dialect) (negative : Bool) (text rest : List Char) (value : ℚ) : Prop :=
  ∃ (digits : Nat) (place : Int), (digits * 10 ^ place : ℚ) = value ∧
    readNumber dialect negative (text ++ rest) = readReal dialect negative digits place rest

section

variable (dialect : Dialect) (negative : Bool) {first : Char} {others rest : List Char}
  (filled : ∀ c ∈ first :: others, c.isDigit = true) (ends : EndsNumber rest)

include filled ends

theorem readsAs_below_one (zeros : Nat) :
    ReadsAs dialect negative ('0' :: '.' :: (List.replicate zeros '0' ++ first :: others)) rest
      (digitsValue (first :: others) * 10 ^ (-(zeros + (first :: others).length) : Int)) := by
  have fraction : ∀ c ∈ List.replicate zeros '0' ++ first :: others, c.isDigit = true :=
    fun c member => (List.mem_append.mp member).elim isDigit_of_mem_zeros (filled c)
  have zero : ∀ c ∈ ['0'], c.isDigit = true := by simp
  refine ⟨_, _, ?_, readNumber_point fraction dialect negative ends zero (.inl rfl) (by simp)⟩
  rw [digitsValue_append, digitsValue_append, digitsValue_replicate,
    show digitsValue ['0'] = 0 from rfl, Nat.zero_mul, Nat.zero_mul, Nat.zero_add, Nat.zero_add,
    List.length_append, List.length_replicate, Nat.cast_add]

theorem readsAs_around (leads : first ≠ '0') (places : Nat) :
    ReadsAs dialect negative
      ((around (first :: others) (places + 1)).1 ++
        '.' :: (around (first :: others) (places + 1)).2) rest
      (digitsValue (first :: others) *
        10 ^ ((places + 1 : Nat) - (first :: others).length : Int)) := by
  have whole : ∀ c ∈ (around (first :: others) (places + 1)).1, c.isDigit = true := fun c member =>
    (List.mem_append.mp member).elim (fun among => filled c (List.mem_of_mem_take among))
      isDigit_of_mem_zeros
  have behind : (around (first :: others) (places + 1)).2 = ['0'] ∨
      (around (first :: others) (places + 1)).2 ≠ [] ∧
        (around (first :: others) (places + 1)).2 = (first :: others).drop (places + 1) := by
    unfold around
    simp only
    split
    case isTrue => exact .inl rfl
    case isFalse some_ => exact .inr ⟨by simpa using some_, rfl⟩
  have fraction : ∀ c ∈ (around (first :: others) (places + 1)).2, c.isDigit = true := by
    rcases behind with zero | ⟨-, dropped⟩
    · simp [zero]
    · exact dropped ▸ fun c member => filled c (List.mem_of_mem_drop member)
  have ne : (around (first :: others) (places + 1)).2 ≠ [] := by
    rcases behind with zero | ⟨ne, -⟩
    · simp [zero]
    · exact ne
  refine ⟨_, _, value_around _ _, ?_⟩
  rw [List.append_assoc, List.cons_append]
  exact readNumber_point fraction dialect negative ends whole (.inr ⟨first, rfl, leads⟩) ne

theorem readsAs_scientific (leads : first ≠ '0') (power : Int) (least : Nat) :
    ReadsAs dialect negative
      ([first] ++ (if others.isEmpty then [] else '.' :: others) ++
        'e' :: (if power < 0 then '-' else '+') ::
          (List.replicate (least - (Nat.toDigits 10 power.natAbs).length) '0' ++
            Nat.toDigits 10 power.natAbs)) rest
      (digitsValue (first :: others) * 10 ^ (power - others.length)) := by
  have exponent : ∀ c ∈ List.replicate (least - (Nat.toDigits 10 power.natAbs).length) '0' ++
      Nat.toDigits 10 power.natAbs, c.isDigit = true := fun c member =>
    (List.mem_append.mp member).elim isDigit_of_mem_zeros isDigit_of_mem_toDigits
  have reads := readNumber_exponent exponent dialect negative ends (filled first List.mem_cons_self)
    leads (fun c member => filled c (List.mem_cons_of_mem first member)) (power < 0)
    (by simp [Nat.toDigits_ne_nil])
  refine ⟨_, _, ?_, by convert reads using 2; simp⟩
  rw [digitsValue_append, digitsValue_replicate, digitsValue_toDigits, Nat.zero_mul, Nat.zero_add]
  congr 2
  split
  case isTrue below => simp only [decide_eq_true_eq] at below; omega
  case isFalse above => simp only [decide_eq_true_eq] at above; omega

end

theorem readsAs_layout (dialect : Dialect) (negative : Bool) (layout : Double.Layout)
    {d : Double.Decimal} (positive : 0 < d.digits) {rest : List Char} (ends : EndsNumber rest) :
    ReadsAs dialect negative (layout.write d) rest d.value := by
  obtain ⟨first, others, kept, leads⟩ := Double.significant_eq_cons positive
  have filled : ∀ c ∈ (Double.significant d).1, c.isDigit = true :=
    fun c => Double.isDigit_of_mem_significant
  rw [Double.value_eq_significant d, Double.Layout.write]
  generalize Double.significant d = parts at kept filled ⊢
  obtain ⟨digits, top⟩ := parts
  simp only at kept filled ⊢
  subst kept
  split
  case isTrue =>
    split
    case isTrue small =>
      have place : top - (first :: others).length + 1 =
          -(((-top - 1).toNat : Int) + (first :: others).length) := by omega
      rw [place]
      exact readsAs_below_one dialect negative filled ends _
    case isFalse large =>
      have place : top - (first :: others).length + 1 =
          (top.toNat + 1 : Nat) - (first :: others).length := by omega
      rw [place]
      exact readsAs_around dialect negative filled ends leads _
  case isFalse =>
    have place : top - (first :: others).length + 1 = top - others.length := by
      rw [List.length_cons]
      omega
    rw [place]
    exact readsAs_scientific dialect negative filled ends leads top layout.exponentDigits

theorem head_layout (layout : Double.Layout) {d : Double.Decimal} (positive : 0 < d.digits) :
    ∃ c ∈ (layout.write d).head?, c.isDigit = true := by
  obtain ⟨c, others, kept, -⟩ := Double.significant_eq_cons positive
  have digit : c.isDigit = true := Double.isDigit_of_mem_significant (d := d) (by simp [kept])
  rw [Double.Layout.write]
  generalize Double.significant d = parts at kept ⊢
  obtain ⟨digits, first⟩ := parts
  simp only at kept ⊢
  subst kept
  split
  case isTrue =>
    split
    case isTrue => exact ⟨'0', rfl, rfl⟩
    case isFalse => exact ⟨c, rfl, digit⟩
  case isFalse => exact ⟨c, rfl, digit⟩

def digitsOf (mantissa : Nat) (exponent : Int) : List Char :=
  if mantissa = 0 then ['0', '.', '0'] else Double.layout.write (Double.shortest mantissa exponent)

section

variable {x : Float} {negative : Bool} {mantissa : Nat} {exponent : Int}
  (finite : Double.shape x = .finite negative mantissa exponent)

include finite

theorem toList_writeReal :
    (writeReal x).toList = (if negative then ['-'] else []) ++ digitsOf mantissa exponent := by
  rw [writeReal, Double.write, finite, digitsOf]
  cases mantissa with
  | zero => cases negative <;> simp
  | succ mantissa => cases negative <;> simp

theorem head_digitsOf : ∃ c ∈ (digitsOf mantissa exponent).head?, c.isDigit = true := by
  rw [digitsOf]
  split
  case isTrue => exact ⟨'0', rfl, rfl⟩
  case isFalse other =>
    have rounds := Double.roundsTo_shortest (.of_shape finite) (Nat.pos_of_ne_zero other)
    refine head_layout _ (Nat.pos_of_ne_zero fun zero => ?_)
    have := rounds.pos (Nat.pos_of_ne_zero other)
    simp [Double.Decimal.value, zero] at this

theorem readNumber_digitsOf (dialect : Dialect) {rest : List Char} (ends : EndsNumber rest) :
    readNumber dialect negative (digitsOf mantissa exponent ++ rest) = .ok (.real x, rest) := by
  suffices reads : ∃ digits place, Double.ofDecimal negative digits place = x ∧
      readNumber dialect negative (digitsOf mantissa exponent ++ rest) =
        readReal dialect negative digits place rest by
    obtain ⟨digits, place, value, same⟩ := reads
    have bounded : Double.isFinite x = true := by
      rw [Double.isFinite, Double.truncate?, finite]
      rfl
    rw [same, readReal, value]
    simp only [bounded, Bool.not_true, Bool.and_false, Bool.false_eq_true, if_false]
  rw [digitsOf]
  split
  case isTrue zero =>
    subst zero
    have digit : ∀ c ∈ ['0'], c.isDigit = true := by simp
    exact ⟨0, -1, Double.ofDecimal_zero finite _,
      readNumber_point digit dialect negative ends digit (.inl rfl) (List.cons_ne_nil _ _)⟩
  case isFalse other =>
    have positive := Nat.pos_of_ne_zero other
    have rounds := Double.roundsTo_shortest (.of_shape finite) positive
    have digits_pos : 0 < (Double.shortest mantissa exponent).digits := by
      refine Nat.pos_of_ne_zero fun zero => ?_
      have := rounds.pos positive
      simp [Double.Decimal.value, zero] at this
    obtain ⟨digits, place, value, same⟩ :=
      readsAs_layout dialect negative Double.layout digits_pos ends
    exact ⟨digits, place, (value ▸ rounds).ofDecimal_eq finite positive, same⟩

end

end Json

end CallTimeline
