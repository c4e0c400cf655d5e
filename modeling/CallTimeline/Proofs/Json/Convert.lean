import CallTimeline.Proofs.Results
import CallTimeline.Timeline.Entry

namespace CallTimeline.Json

inductive SpellsInt : Json → Int → Prop
  | int (n : Int) : SpellsInt (.int n) n
  | bool (b : Bool) : SpellsInt (.bool b) (if b then 1 else 0)
  | real {x : Float} {n : Int} (whole : Double.truncate? x = some n) : SpellsInt (.real x) n
  | str {text : String} {n : Int} (digits : Number.integer text.toList = .ok n) :
      SpellsInt (.str text) n

inductive SpellsReal : Json → Float → Prop
  | int {n : Int} (inRange : Double.isFinite (Double.ofInt n) = true) :
      SpellsReal (.int n) (Double.ofInt n)
  | bool (b : Bool) : SpellsReal (.bool b) (Double.ofInt (if b then 1 else 0))
  | real (x : Float) : SpellsReal (.real x) x
  | str {text : String} {x : Float} (digits : Number.real? text.toList = some x) :
      SpellsReal (.str text) x

variable {value : Json}

theorem toInt_real {x : Float} {n : Int} :
    (real x).toInt = .ok n ↔ Double.truncate? x = some n := by
  rw [toInt, Double.truncate?]
  cases Double.shape x with
  | nan => exact ⟨nofun, nofun⟩
  | infinite => exact ⟨nofun, nofun⟩
  | finite => simp

theorem toInt_str {text : String} {n : Int} :
    (str text).toInt = .ok n ↔ Number.integer text.toList = .ok n := by
  rw [toInt]
  cases Number.integer text.toList with
  | error refusal => exact ⟨nofun, nofun⟩
  | ok whole => simp [Except.mapError]

theorem toInt_eq_ok {n : Int} : value.toInt = .ok n ↔ value.SpellsInt n := by
  constructor
  · intro read
    cases value with
    | int => exact Except.ok.inj read ▸ .int _
    | bool => exact Except.ok.inj read ▸ .bool _
    | real => exact .real (toInt_real.mp read)
    | str => exact .str (toInt_str.mp read)
    | null | arr | obj => cases read
  · intro spells
    cases spells with
    | int | bool => rfl
    | real whole => exact toInt_real.mpr whole
    | str digits => exact toInt_str.mpr digits

theorem toReal_eq_ok {x : Float} : value.toReal = .ok x ↔ value.SpellsReal x := by
  constructor
  · intro read
    cases value with
    | int n =>
        rw [toReal, realOfInt] at read
        split at read
        case isTrue inRange => exact Except.ok.inj read ▸ .int inRange
        case isFalse => cases read
    | bool => exact Except.ok.inj read ▸ .bool _
    | real => exact Except.ok.inj read ▸ .real _
    | str text =>
        rw [toReal] at read
        split at read
        case h_1 digits => exact Except.ok.inj read ▸ .str digits
        case h_2 => cases read
    | null | arr | obj => cases read
  · intro spells
    cases spells with
    | int inRange => exact if_pos inRange
    | bool | real => rfl
    | str digits => rw [toReal, digits]

def IsInfinite (value : Json) : Prop :=
  ∃ x negative, value = .real x ∧ Double.shape x = .infinite negative

theorem IsInfinite.toInt_eq (infinite : value.IsInfinite) :
    value.toInt = .error .infinityAsInteger := by
  obtain ⟨x, negative, rfl, shape⟩ := infinite
  rw [toInt, shape]

theorem field_eq_ok {key : String} {found : Json} :
    value.field key = .ok found ↔
      ∃ fields : Fields, value = .obj fields ∧ fields.get? key = some found := by
  cases value with
  | obj fields =>
      simp only [field, obj.injEq, exists_eq_left']
      change _ ↔ fields.lookup key = some found
      cases fields.lookup key <;> simp
  | _ => simp [field]

theorem field_obj {fields : Fields} {key : String} {found : Json} :
    (obj fields).field key = .ok found ↔ fields.get? key = some found := by
  simp [field_eq_ok]

theorem fieldD_obj {fields : Fields} {key : String} {default : Json} :
    (obj fields).fieldD key default = .ok ((fields.get? key).getD default) := rfl

theorem fieldD_eq_ok {key : String} {default found : Json} :
    value.fieldD key default = .ok found ↔
      ∃ fields : Fields, value = .obj fields ∧ (fields.get? key).getD default = found := by
  cases value with
  | obj fields =>
      simp only [obj.injEq, exists_eq_left']
      exact ⟨Except.ok.inj, congrArg Except.ok⟩
  | _ => exact ⟨nofun, nofun⟩

theorem parts_eq_ok {items : List Json} : value.parts = .ok items ↔ value.parts? = some items := by
  rw [parts]
  cases value.parts? <;> simp

theorem toWord_eq_ok {α : Type} {kind : String} {word : α → String} {all : List α} {a : α}
    (distinct : ∀ a b, word a = word b → a = b) (listed : ∀ a, a ∈ all) :
    toWord kind word all value = .ok a ↔ value = .str (word a) := by
  constructor
  · intro read
    cases value with
    | str text =>
        rw [toWord] at read
        split at read
        case h_1 b found =>
          have same := List.find?_some (p := (word · == text)) found
          rw [← Except.ok.inj read, beq_iff_eq.mp same]
        case h_2 => cases read
    | _ => cases read
  · rintro rfl
    rw [toWord]
    split
    case h_1 b found =>
      have same := List.find?_some (p := (word · == word a)) found
      rw [distinct b a (beq_iff_eq.mp same)]
    case h_2 missing =>
      exact absurd (beq_self_eq_true (word a)) (List.find?_eq_none.mp missing a (listed a))

end CallTimeline.Json
