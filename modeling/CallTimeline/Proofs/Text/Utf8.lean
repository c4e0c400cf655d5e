import CallTimeline.Text.Utf8
import Mathlib.Tactic.IntervalCases

namespace CallTimeline.Text.Utf8

theorem lead?_two {share : Nat} (low : 2 ≤ share) (high : share < 32) :
    lead? (share + 0xC0) = some { value := share, following := 1 } := by
  interval_cases share <;> rfl

theorem lead?_three {share : Nat} (high : share < 16) :
    lead? (share + 0xE0) = some
      { value := share
        following := 2
        low := if share = 0 then 0xA0 else 0x80
        high := if share = 13 then 0x9F else 0xBF } := by
  interval_cases share <;> rfl

theorem lead?_four {share : Nat} (high : share < 5) :
    lead? (share + 0xF0) = some
      { value := share
        following := 3
        low := if share = 0 then 0x90 else 0x80
        high := if share = 4 then 0x8F else 0xBF } := by
  interval_cases share <;> rfl

theorem follow_ofNat {value low high following share : Nat} (bytes : List UInt8)
    (bounds : low ≤ share + 0x80 ∧ share + 0x80 ≤ high) (small : share < 64) :
    follow value low high (following + 1) (UInt8.ofNat (share + 0x80) :: bytes) =
      follow (64 * value + share) 0x80 0xBF following bytes := by
  have byte : (UInt8.ofNat (share + 0x80)).toNat = share + 0x80 := by
    rw [UInt8.toNat_ofNat', Nat.mod_eq_of_lt (by omega)]
  rw [follow, byte, if_pos bounds, Nat.add_sub_cancel]

theorem follow_tail {value following share : Nat} (bytes : List UInt8) (small : share < 64) :
    follow value 0x80 0xBF (following + 1) (UInt8.ofNat (share + 0x80) :: bytes) =
      follow (64 * value + share) 0x80 0xBF following bytes :=
  follow_ofNat bytes (by omega) small

theorem go_ofNat {done : List (Option Char)} {first : Nat} {lead : Lead} {bytes rest : List UInt8}
    {c : Char} (small : first < 256) (leads : lead? first = some lead)
    (follows : follow lead.value lead.low lead.high lead.following bytes = (some c, rest)) :
    decode.go done (UInt8.ofNat first :: bytes) = decode.go (some c :: done) rest := by
  rw [decode.go, UInt8.toNat_ofNat', Nat.mod_eq_of_lt small, leads]
  simp only [follows]

theorem go_utf8EncodeChar (done : List (Option Char)) (c : Char) (rest : List UInt8) :
    decode.go done (String.utf8EncodeChar c ++ rest) = decode.go (some c :: done) rest := by
  have valid : c.toNat < 0xD800 ∨ 0xDFFF < c.toNat ∧ c.toNat < 0x110000 := c.valid
  have whole : Char.ofNat c.toNat = c := Char.ofNat_toNat c
  unfold String.utf8EncodeChar
  simp only [Char.toNat_val]
  generalize c.toNat = n at valid whole ⊢
  split
  case isTrue one =>
    rw [List.singleton_append]
    refine go_ofNat (by omega) (if_pos (by omega)) ?_
    rw [follow, whole]
  split
  case isTrue two =>
    rw [List.cons_append, List.singleton_append]
    refine go_ofNat (by omega) (lead?_two (by omega) (by omega)) ?_
    have number : 64 * (n / 64 % 32) + n % 64 = n := by omega
    rw [follow_tail rest (by omega), number, follow, whole]
  split
  case isTrue three =>
    rw [List.cons_append, List.cons_append, List.singleton_append]
    refine go_ofNat (by omega) (lead?_three (by omega)) ?_
    have number : 64 * (64 * (n / 4096 % 16) + n / 64 % 64) + n % 64 = n := by omega
    have bounds : (if n / 4096 % 16 = 0 then 0xA0 else 0x80) ≤ n / 64 % 64 + 0x80 ∧
        n / 64 % 64 + 0x80 ≤ if n / 4096 % 16 = 13 then 0x9F else 0xBF := by
      split <;> split <;> omega
    rw [follow_ofNat _ bounds (by omega), follow_tail rest (by omega), number, follow, whole]
  case isFalse four =>
    rw [List.cons_append, List.cons_append, List.cons_append, List.singleton_append]
    refine go_ofNat (by omega) (lead?_four (by omega)) ?_
    have number :
        64 * (64 * (64 * (n / 262144 % 8) + n / 4096 % 64) + n / 64 % 64) + n % 64 = n := by omega
    have bounds : (if n / 262144 % 8 = 0 then 0x90 else 0x80) ≤ n / 4096 % 64 + 0x80 ∧
        n / 4096 % 64 + 0x80 ≤ if n / 262144 % 8 = 4 then 0x8F else 0xBF := by
      split <;> split <;> omega
    rw [follow_ofNat _ bounds (by omega), follow_tail _ (by omega), follow_tail rest (by omega),
      number, follow, whole]

theorem go_flatMap (done : List (Option Char)) (text : List Char) :
    decode.go done (text.flatMap String.utf8EncodeChar) = done.reverse ++ text.map some := by
  induction text generalizing done with
  | nil => rw [List.flatMap_nil, decode.go, List.map_nil, List.append_nil]
  | cons c text ih =>
      rw [List.flatMap_cons, go_utf8EncodeChar, ih, List.reverse_cons, List.append_assoc,
        List.map_cons, List.singleton_append]

theorem toList_eq_data (bytes : ByteArray) : bytes.toList = bytes.data.toList := by
  have kept (i : Nat) (done : List UInt8) :
      ByteArray.toList.loop bytes i done = done.reverse ++ bytes.data.toList.drop i := by
    fun_induction ByteArray.toList.loop bytes i done with
    | case1 i done inside ih =>
      have here : i < bytes.data.toList.length := by simpa using inside
      have byte : bytes.get! i = bytes.data[i]! := by cases bytes; rfl
      rw [ih, List.drop_eq_getElem_cons here, byte, getElem!_pos bytes.data i inside,
        List.reverse_cons, List.append_assoc]
      rfl
    | case2 i done outside =>
      rw [List.drop_eq_nil_of_le (by simpa using Nat.le_of_not_lt outside), List.append_nil]
  exact kept 0 []

theorem encode_eq (text : String) : encode text = text.toList.flatMap String.utf8EncodeChar := by
  rw [encode, String.toUTF8_eq_toByteArray, toList_eq_data, ← String.utf8Encode_toList,
    List.utf8Encode, List.toList_data_toByteArray]

theorem decode_encode (text : String) : decode (encode text) = text.toList.map some := by
  rw [decode, encode_eq, go_flatMap, List.reverse_nil, List.nil_append]

theorem decode?_encode (text : String) : decode? (encode text) = some text.toList := by
  simp [decode?, decode_encode]

theorem decodeReplacing_encode (text : String) : decodeReplacing (encode text) = text.toList := by
  simp [decodeReplacing, decode_encode]

theorem encode_injective {text text' : String} (same : encode text = encode text') :
    text = text' := by
  have decoded := congrArg decode? same
  rw [decode?_encode, decode?_encode] at decoded
  exact String.toList_inj.mp (Option.some.inj decoded)

end CallTimeline.Text.Utf8
