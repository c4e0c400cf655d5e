import CallTimeline.Proofs.Json.Strings
import CallTimeline.Proofs.Number.Written

namespace CallTimeline.Json

section

variable (dialect : Dialect)

def acceptInt (value : Int) : Except Number.Refusal Unit :=
  let digits := (Nat.toDigits 10 value.natAbs).length
  if dialect.digitBound.any (· < digits) then .error (.tooLong digits)
  else if dialect.magnitudeBound.any (· < value.natAbs) then malformed
  else .ok ()

def acceptReal (value : Float) : Except Number.Refusal Unit :=
  if dialect.nonFinite || Double.isFinite value then .ok () else malformed

end

section

variable {dialect : Dialect} {rest : List Char}

theorem readWord_of_head {c : Char} (other : c ∉ ['n', 't', 'f', 'N', 'I', '-']) :
    readWord dialect (c :: rest) = readNumber dialect false (c :: rest) := by
  simp only [List.mem_cons, List.not_mem_nil, or_false, not_or] at other
  obtain ⟨n, t, f, N, I, minus⟩ := other
  unfold readWord
  cases dialect.nonFinite <;>
    simp [List.isPrefixOf?, Ne.symm n, Ne.symm t, Ne.symm f, Ne.symm N, Ne.symm I, Ne.symm minus]
  all_goals
    split
    case h_1 same => exact absurd (List.cons.inj same).1 minus
    case h_2 => rfl

theorem readWord_minus {c : Char} (other : c ≠ 'I') :
    readWord dialect ('-' :: c :: rest) = readNumber dialect true (c :: rest) := by
  unfold readWord
  cases dialect.nonFinite <;> simp [List.isPrefixOf?, other.symm]

theorem readWord_null : readWord dialect ("null".toList ++ rest) = .ok (.null, rest) := rfl

theorem readWord_bool (value : Bool) :
    readWord dialect ((if value then "true".toList else "false".toList) ++ rest) =
      .ok (.bool value, rest) := by
  cases value <;> rfl

theorem toList_toString (value : Int) :
    (toString value).toList =
      (if value < 0 then ['-'] else []) ++ Nat.toDigits 10 value.natAbs := by
  cases value with
  | ofNat n => simp [toString, Int.repr]
  | negSucc n => simp [toString, Int.repr]

theorem head_toDigits (n : Nat) : ∃ c ∈ (Nat.toDigits 10 n).head?, c.isDigit = true := by
  obtain ⟨c, digits, split⟩ := List.exists_cons_of_ne_nil (Nat.toDigits_ne_nil (n := n) (b := 10))
  exact ⟨c, by rw [split]; rfl, Text.isDigit_of_mem_toDigits (n := n) (by simp [split])⟩

theorem readWord_digits {negative : Bool} {text : List Char}
    (head : ∃ c ∈ text.head?, c.isDigit = true) :
    readWord dialect ((if negative then ['-'] else []) ++ (text ++ rest)) =
      readNumber dialect negative (text ++ rest) := by
  obtain ⟨c, first, digit⟩ := head
  obtain ⟨others, rfl⟩ := List.head?_eq_some_iff.mp first
  cases negative with
  | true =>
      refine readWord_minus ?_
      rintro rfl
      cases digit
  | false =>
      have letters : ∀ d ∈ ['n', 't', 'f', 'N', 'I', '-'], d.isDigit = false := by simp
      refine readWord_of_head fun member => ?_
      rw [letters c member] at digit
      cases digit

theorem readNumber_toDigits (n : Nat) (negative : Bool) (ends : EndsNumber rest) :
    readNumber dialect negative (Nat.toDigits 10 n ++ rest) =
      (acceptInt dialect (if negative then -n else n)).map fun _ =>
        (.int (if negative then -n else n), rest) := by
  have plain : Nat.toDigits 10 n = ['0'] ∨ ∃ c ∈ (Nat.toDigits 10 n).head?, c ≠ '0' := by
    rcases Nat.eq_zero_or_pos n with rfl | positive
    · exact .inl rfl
    · obtain ⟨c, first, -⟩ := head_toDigits n
      refine .inr ⟨c, first, ?_⟩
      rintro rfl
      exact Double.head_toDigits positive first
  have size : (if negative then -(n : Int) else n).natAbs = n := by split <;> simp
  rw [readNumber_append (fun c => Text.isDigit_of_mem_toDigits) dialect negative plain
    fun c head => (ends c head).1, readBehind, acceptInt, size]
  rw [fractionPart_of_head? fun head => (ends '.' head).2.1 rfl]
  simp only [exponentPart_of_head? fun c head => (ends c head).2.2, Text.digitsValue_toDigits,
    Option.isNone_none, Bool.and_self, if_true]
  split
  case isTrue => rfl
  case isFalse =>
    split <;> rfl

theorem readWord_int (value : Int) (ends : EndsNumber rest) :
    readWord dialect ((toString value).toList ++ rest) =
      (acceptInt dialect value).map fun _ => (.int value, rest) := by
  have reads := @readNumber_toDigits dialect rest value.natAbs (value < 0) ends
  have same : (if decide (value < 0) then -(value.natAbs : Int) else value.natAbs) = value := by
    split
    case isTrue below => rw [decide_eq_true_eq] at below; omega
    case isFalse above => rw [decide_eq_true_eq] at above; omega
  rw [same] at reads
  rw [toList_toString, List.append_assoc, ← reads, ← readWord_digits (head_toDigits _)]
  simp

theorem readNumber_of_head {c : Char} {negative : Bool} (other : c.isDigit = false) :
    readNumber dialect negative (c :: rest) = malformed := by
  have none_ : digits (c :: rest) = ([], c :: rest) := by
    rw [digits, List.span_eq_takeWhile_dropWhile, List.takeWhile_cons, List.dropWhile_cons, other]
    rfl
  unfold readNumber
  split
  case h_1 found =>
    split at found
    case h_1 same => rw [(List.cons.inj same).1] at other; cases other
    case h_2 =>
      rw [none_] at found
      cases found
      rfl

theorem readWord_special (rest : List Char) :
    readWord dialect ('N' :: 'a' :: 'N' :: rest) =
        (if dialect.nonFinite then .ok (.real Double.nan, rest) else malformed) ∧
      ∀ negative,
        readWord dialect ((if negative then ['-'] else []) ++ ("Infinity".toList ++ rest)) =
          (if dialect.nonFinite then .ok (.real (Double.infinity negative), rest)
            else malformed) := by
  have letter : 'N'.isDigit = false ∧ 'I'.isDigit = false := ⟨rfl, rfl⟩
  unfold readWord
  cases dialect.nonFinite with
  | false =>
      refine ⟨?_, fun negative => ?_⟩
      · simp [List.isPrefixOf?, readNumber_of_head letter.1]
      · cases negative <;> simp [List.isPrefixOf?, readNumber_of_head letter.2]
  | true =>
      refine ⟨by simp [List.isPrefixOf?], fun negative => ?_⟩
      cases negative <;> simp [List.isPrefixOf?]

theorem readWord_real (value : Float) (ends : EndsNumber rest) :
    readWord dialect ((writeReal value).toList ++ rest) =
      (acceptReal dialect value).map fun _ => (.real value, rest) := by
  obtain ⟨nan, infinite⟩ := @readWord_special dialect rest
  rw [acceptReal]
  cases shape : Double.shape value with
  | nan =>
      have text : (writeReal value).toList = ['N', 'a', 'N'] := by
        rw [writeReal, Double.write, shape]
        simp
      have unbounded : Double.isFinite value = false := by
        rw [Double.isFinite, Double.truncate?, shape]
        rfl
      rw [text, unbounded, Bool.or_false, Double.eq_nan shape]
      refine nan.trans ?_
      split <;> rfl
  | infinite negative =>
      have text : (writeReal value).toList =
          (if negative then ['-'] else []) ++ "Infinity".toList := by
        rw [writeReal, Double.write, shape]
        cases negative <;> simp
      have unbounded : Double.isFinite value = false := by
        rw [Double.isFinite, Double.truncate?, shape]
        rfl
      rw [text, unbounded, Bool.or_false, Double.eq_infinity shape, List.append_assoc, infinite]
      split <;> rfl
  | finite negative mantissa exponent =>
      have bounded : Double.isFinite value = true := by
        rw [Double.isFinite, Double.truncate?, shape]
        rfl
      rw [toList_writeReal shape, List.append_assoc, readWord_digits (head_digitsOf shape),
        readNumber_digitsOf shape dialect ends, bounded, Bool.or_true, if_pos rfl]
      rfl

end

def Begins (text : List Char) : Prop :=
  ∃ c ∈ text.head?, 0x20 < c.toNat ∧ c ≠ ']' ∧ c ≠ '\x7d'

theorem Begins.append {text : List Char} (begins : Begins text) (rest : List Char) :
    Begins (text ++ rest) := by
  obtain ⟨c, first, property⟩ := begins
  obtain ⟨others, rfl⟩ := List.head?_eq_some_iff.mp first
  exact ⟨c, rfl, property⟩

theorem Begins.printed {text : List Char} (begins : Begins text) :
    ∃ c ∈ text.head?, 0x20 < c.toNat := by
  obtain ⟨c, first, printed, -⟩ := begins
  exact ⟨c, first, printed⟩

theorem Begins.goesOn {text : List Char} (begins : Begins text) :
    (∀ rest, text ≠ ']' :: rest) ∧ ∀ rest, text ≠ '\x7d' :: rest := by
  obtain ⟨c, first, -, bracket, brace⟩ := begins
  constructor <;> rintro rest rfl
  · exact bracket (Option.some.inj first).symm
  · exact brace (Option.some.inj first).symm

theorem begins_writeString (s : String) : Begins (writeString s).toList := by
  rw [writeString, String.toList_ofList]
  exact ⟨'"', rfl, by decide⟩

def BeginsWord (text : List Char) : Prop :=
  ∃ c ∈ text.head?, 0x20 < c.toNat ∧ c ∉ ['"', '[', ']', '\x7b', '\x7d']

theorem BeginsWord.begins {text : List Char} (word : BeginsWord text) : Begins text := by
  obtain ⟨c, first, printed, other⟩ := word
  simp only [List.mem_cons, List.not_mem_nil, or_false, not_or] at other
  exact ⟨c, first, printed, other.2.2.1, other.2.2.2.2⟩

theorem beginsWord_of_sign {text : List Char} (negative : Bool)
    (head : ∃ c ∈ text.head?, c.isDigit = true) :
    BeginsWord ((if negative then ['-'] else []) ++ text) := by
  cases negative with
  | true => exact ⟨'-', rfl, by decide⟩
  | false =>
      obtain ⟨c, first, digit⟩ := head
      have bounds := Char.isDigit_iff_toNat.mp digit
      have low : '0'.toNat = 48 := rfl
      have signs : ∀ d ∈ ['"', '[', ']', '\x7b', '\x7d'], d.isDigit = false := by simp
      refine ⟨c, first, by omega, fun member => ?_⟩
      rw [signs c member] at digit
      cases digit

theorem beginsWord_toString (value : Int) : BeginsWord (toString value).toList := by
  rw [toList_toString]
  simpa using beginsWord_of_sign (value < 0) (head_toDigits value.natAbs)

theorem beginsWord_writeReal (value : Float) : BeginsWord (writeReal value).toList := by
  cases shape : Double.shape value with
  | nan =>
      rw [writeReal, Double.write, shape]
      exact ⟨'N', rfl, by decide⟩
  | infinite negative =>
      rw [writeReal, Double.write, shape]
      cases negative
      · exact ⟨'I', rfl, by decide⟩
      · exact ⟨'-', by simp, by decide⟩
  | finite negative mantissa exponent =>
      rw [toList_writeReal shape]
      exact beginsWord_of_sign negative (head_digitsOf shape)

theorem beginsWord_bool (value : Bool) :
    BeginsWord (if value then "true".toList else "false".toList) := by
  cases value
  · exact ⟨'f', rfl, by decide⟩
  · exact ⟨'t', rfl, by decide⟩

end CallTimeline.Json
