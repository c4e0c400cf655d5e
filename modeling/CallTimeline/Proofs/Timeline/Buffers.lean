import CallTimeline.Proofs.Json.Strings
import CallTimeline.Proofs.Text.Lines
import CallTimeline.Timeline.Buffer

namespace CallTimeline.Buffer

open Text

def number? : Json → Option Int
  | .str text =>
    ("0x".toList.isPrefixOf? text.toList).bind fun digits => (Json.unit? digits).map Int.ofNat
  | _ => none

structure Extent where
  address : Int
  head : Int
  data : Int
  tail : Int
  limit : Int

def extent? (buffer : Buffer) : Option Extent := do
  return {
    address := ← number? buffer.address
    head := ← number? buffer.head
    data := ← number? buffer.data
    tail := ← number? buffer.tail
    limit := ← number? buffer.limit }

theorem unit?_append (digits : List Char) {digit : Nat} (below : digit < 16) :
    Json.unit? (digits ++ [digit.digitChar]) = (Json.unit? digits).map (16 * · + digit) := by
  rw [Json.unit?, Json.unit?, List.foldlM_append]
  cases digits.foldlM (fun value c => (Json.hexValue? c).map (16 * value + ·)) 0 with
  | none => rfl
  | some value => simp [Json.hexValue?_digitChar below]

theorem unit?_toDigits (n : Nat) : Json.unit? (Nat.toDigits 16 n) = some n := by
  induction n using Nat.strongRecOn with
  | ind n ih =>
      by_cases few : n < 16
      · simpa [Nat.toDigits_of_lt_base few, Json.unit?] using unit?_append [] few
      · rw [Nat.toDigits_of_base_le (by decide) (Nat.le_of_not_lt few),
          unit?_append _ (Nat.mod_lt n (by decide)), ih (n / 16) (by omega), Option.map_some,
          Nat.div_add_mod]

theorem number?_hex {n : Int} (natural : 0 ≤ n) : number? (.str (hex n)) = some n := by
  have shown : (hex n).toList = "0x".toList ++ Nat.toDigits 16 n.natAbs := by
    simp [hex, Int.not_lt.mpr natural]
  have digits : "0x".toList.isPrefixOf? (hex n).toList = some (Nat.toDigits 16 n.natAbs) :=
    List.isPrefixOf?_eq_some_iff_append_eq.mpr shown.symm
  rw [number?, digits, Option.bind_some, unit?_toDigits, Option.map_some]
  exact congrArg some (Int.natAbs_of_nonneg natural)

structure IsPassing (function : String) : Prop where
  no_alloc : ¬ "alloc".toList <:+: function.toList
  no_free : ¬ "free".toList <:+: function.toList

variable {function other : String} {direction : Direction} {step later : Int}

theorem payload_of_passing (passing : IsPassing function) :
    payload function direction step =
      if direction = .transmit then max leastSize (fullSize - step * 50)
      else min fullSize (leastSize + step * 30) := by
  rw [payload, if_neg (mt occurs_iff_infix.mp passing.no_alloc),
    if_neg (mt occurs_iff_infix.mp passing.no_free)]

theorem payload_mem (function : String) (direction : Direction) (first : 1 ≤ step) :
    0 ≤ payload function direction step ∧ payload function direction step ≤ fullSize := by
  unfold payload fullSize receiveSize leastSize
  split_ifs <;> omega

theorem payload_antitone (sent : direction = .transmit) (passing : IsPassing function)
    (passing' : IsPassing other) (le : step ≤ later) :
    payload other direction later ≤ payload function direction step := by
  rw [payload_of_passing passing, payload_of_passing passing', if_pos sent, if_pos sent]
  omega

theorem payload_monotone (notSent : direction ≠ .transmit) (passing : IsPassing function)
    (passing' : IsPassing other) (le : step ≤ later) :
    payload function direction step ≤ payload other direction later := by
  rw [payload_of_passing passing, payload_of_passing passing', if_neg notSent, if_neg notSent]
  omega

/-- The addresses at a step, for a payload of some size. -/
def extentAt (step size : Int) : Extent where
  address := baseAddress + step * stepStride
  head := baseAddress + step * stepStride + headOffset
  data := baseAddress + step * stepStride + dataOffset
  tail := baseAddress + step * stepStride + dataOffset + size
  limit := baseAddress + step * stepStride + limitOffset

theorem dataLength_atStep (function : String) (direction : Direction) (step : Int) :
    (atStep function direction step).dataLength = payload function direction step := rfl

theorem extent?_atStep (function : String) (direction : Direction) (first : 1 ≤ step) :
    (atStep function direction step).extent? =
      some (extentAt step (payload function direction step)) := by
  have size := (payload_mem function direction first).1
  have address : 0 ≤ baseAddress + step * stepStride := by
    unfold baseAddress stepStride
    omega
  have data : 0 ≤ baseAddress + step * stepStride + dataOffset :=
    Int.add_nonneg address (by decide)
  simp only [extent?, atStep, number?_hex address, number?_hex data,
    number?_hex (Int.add_nonneg address (by decide : 0 ≤ headOffset)),
    number?_hex (Int.add_nonneg data size),
    number?_hex (Int.add_nonneg address (by decide : 0 ≤ limitOffset))]
  rfl

/-- The addresses of a buffer can be read and stand in their order, with as many bytes between data
and tail as the buffer holds, and these are never more than a full packet has. The buffer of a later
step lies behind it, whichever functions and directions the two have. If no function allocates or
frees, what is sent never grows with the steps, and all else never shrinks. -/
theorem atStep_wellFormed (first : 1 ≤ step) (function : String) (direction : Direction) :
    ∃ extent, (atStep function direction step).extent? = some extent ∧
      (extent.address < extent.head ∧ extent.head < extent.data ∧ extent.data ≤ extent.tail ∧
        extent.tail < extent.limit) ∧
      extent.tail - extent.data = (atStep function direction step).dataLength ∧
      (0 ≤ (atStep function direction step).dataLength ∧
        (atStep function direction step).dataLength ≤ 1500) ∧
      (∀ later > step, ∀ other direction',
        ∃ next, (atStep other direction' later).extent? = some next ∧
          extent.limit < next.address) ∧
      (IsPassing function → ∀ later ≥ step, ∀ other, IsPassing other →
        if direction = .transmit then
          (atStep other direction later).dataLength ≤ (atStep function direction step).dataLength
        else
          (atStep function direction step).dataLength ≤ (atStep other direction later).dataLength) := by
  obtain ⟨least, most⟩ := payload_mem function direction first
  refine ⟨_, extent?_atStep function direction first, ?_, ?_, ⟨least, most⟩, ?_, ?_⟩
  · unfold fullSize at most
    unfold extentAt headOffset dataOffset limitOffset
    dsimp only
    omega
  · rw [dataLength_atStep]
    unfold extentAt
    dsimp only
    omega
  · intro later after other direction'
    refine ⟨_, extent?_atStep other direction' (by omega), ?_⟩
    unfold extentAt stepStride limitOffset
    dsimp only
    omega
  · intro passing later after other passing'
    split_ifs with sent
    · exact payload_antitone sent passing passing' after
    · exact payload_monotone sent passing passing' after

theorem atStep_wellFormed_sent :
    ∃ extent, (atStep "ip_output" .transmit 1).extent? = some extent ∧
      extent.tail - extent.data = 1450 ∧
      (∃ next, (atStep "consume_skb_free" .other 2).extent? = some next ∧
        extent.limit < next.address) ∧
      (atStep "dev_queue_xmit" .transmit 30).dataLength = 64 ∧
      (atStep "dev_queue_xmit" .transmit 30).dataLength ≤
        (atStep "ip_output" .transmit 1).dataLength := by
  have passing : IsPassing "ip_output" :=
    ⟨mt occurs_iff_infix.mpr (by decide), mt occurs_iff_infix.mpr (by decide)⟩
  have passing' : IsPassing "dev_queue_xmit" :=
    ⟨mt occurs_iff_infix.mpr (by decide), mt occurs_iff_infix.mpr (by decide)⟩
  obtain ⟨extent, read, -, held, -, apart, sheds⟩ :=
    atStep_wellFormed (by decide : (1 : Int) ≤ 1) "ip_output" .transmit
  refine ⟨extent, read, ?_, apart 2 (by decide) _ _, ?_, ?_⟩
  · rw [held, dataLength_atStep]
    decide
  · rw [dataLength_atStep]
    decide
  · simpa using sheds passing 30 (by decide) _ passing'

end CallTimeline.Buffer
