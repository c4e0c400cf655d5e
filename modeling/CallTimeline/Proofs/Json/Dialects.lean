import CallTimeline.Proofs.Json.Parts

/-!
# Dialects

A dialect that is within another reads no text differently: what it does not refuse is the same
value in both (`Dialect.Within.readValue`). The narrow dialect is within one that has the same
blanks and no bounds (`narrow_within_unbounded`).
-/

namespace CallTimeline.Json

def Dialect.unbounded : Dialect :=
  { Dialect.narrow with nonFinite := true, magnitudeBound := none }

structure Dialect.Within (strict loose : Dialect) : Prop where
  isBlank : strict.isBlank = loose.isBlank
  nonFinite : strict.nonFinite = true → loose.nonFinite = true
  digitBound : ∀ count, loose.digitBound.any (· < count) = true →
    strict.digitBound.any (· < count) = true
  magnitudeBound : ∀ magnitude, loose.magnitudeBound.any (· < magnitude) = true →
    strict.magnitudeBound.any (· < magnitude) = true

theorem narrow_within_unbounded : Dialect.narrow.Within .unbounded where
  isBlank := rfl
  nonFinite := fun _ => rfl
  digitBound := fun _ => id
  magnitudeBound := nofun

section

variable {strict loose : Dialect} (within : strict.Within loose)

include within

theorem Dialect.Within.readBehind {negative : Bool} {whole text : List Char}
    {reading : Json × Rest} (reads : Json.readBehind strict negative whole text = .ok reading) :
    Json.readBehind loose negative whole text = .ok reading := by
  unfold Json.readBehind at reads ⊢
  simp only at reads ⊢
  split at reads
  case isTrue plain =>
    rw [if_pos plain]
    split at reads
    case isTrue => cases reads
    case isFalse short =>
      rw [if_neg (mt (within.digitBound _) short)]
      split at reads
      case isTrue => cases reads
      case isFalse small =>
        rw [if_neg (mt (within.magnitudeBound _) small)]
        exact reads
  case isFalse parts =>
    rw [if_neg parts]
    split at reads
    case isTrue => cases reads
    case isFalse allowed =>
      rw [if_neg ?_]
      · exact reads
      · revert allowed
        have loud := within.nonFinite
        revert loud
        cases strict.nonFinite <;> cases loose.nonFinite <;> simp

theorem Dialect.Within.readNumber {negative : Bool} {text : List Char} {reading : Json × Rest}
    (reads : Json.readNumber strict negative text = .ok reading) :
    Json.readNumber loose negative text = .ok reading := by
  rw [readNumber_eq_readBehind] at reads ⊢
  split at reads
  case isTrue => cases reads
  case isFalse digits =>
    rw [if_neg digits]
    exact within.readBehind reads

theorem Dialect.Within.readSigned {text : List Char} {reading : Json × Rest}
    (reads : Json.readSigned strict text = .ok reading) :
    Json.readSigned loose text = .ok reading := by
  unfold Json.readSigned at reads ⊢
  split at reads
  case h_1 => exact within.readNumber reads
  case h_2 => exact within.readNumber reads

theorem Dialect.Within.readWord {text : List Char} {reading : Json × Rest}
    (reads : Json.readWord strict text = .ok reading) :
    Json.readWord loose text = .ok reading := by
  rw [readWord_eq] at reads ⊢
  cases plain : wordAt? plainWords text with
  | some found =>
      rw [plain] at reads
      exact reads
  | none =>
      rw [plain, Option.none_or] at reads
      rw [Option.none_or]
      cases special : wordAt? specialWords text with
      | none =>
          simp only [special, ite_self] at reads ⊢
          exact within.readSigned reads
      | some found =>
          -- A dialect that does not know the word finds no digit in its place.
          cases known : strict.nonFinite with
          | true =>
              rw [known, special] at reads
              rw [within.nonFinite known]
              exact reads
          | false =>
              simp only [known, Bool.false_eq_true, if_false,
                readSigned_specialWord strict special] at reads
              cases reads

theorem Dialect.Within.readKey (text : List Char) :
    Json.readKey strict text = Json.readKey loose text := by
  unfold Json.readKey
  rw [within.isBlank]

theorem Dialect.Within.listBody {fuel : Nat} {text : List Char} {reading : List Json × Rest}
    (items : ∀ text reading, Json.itemsFrom strict fuel text = .ok reading →
      Json.itemsFrom loose fuel text = .ok reading)
    (reads : Json.listBody strict fuel text = .ok reading) :
    Json.listBody loose fuel text = .ok reading := by
  unfold Json.listBody at reads ⊢
  rw [← within.isBlank]
  split at reads
  case h_1 => exact reads
  case h_2 => exact items _ _ reads

theorem Dialect.Within.objectBody {fuel : Nat} {text : List Char} {reading : Fields × Rest}
    (fields : ∀ text reading, Json.fieldsFrom strict fuel text = .ok reading →
      Json.fieldsFrom loose fuel text = .ok reading)
    (reads : Json.objectBody strict fuel text = .ok reading) :
    Json.objectBody loose fuel text = .ok reading := by
  unfold Json.objectBody at reads ⊢
  rw [← within.isBlank]
  split at reads
  case h_1 => exact reads
  case h_2 => exact fields _ _ reads

theorem Dialect.Within.readParts (fuel : Nat) :
    (∀ text reading, Json.readValue strict fuel text = .ok reading →
      Json.readValue loose fuel text = .ok reading) ∧
    (∀ text reading, Json.itemsFrom strict fuel text = .ok reading →
      Json.itemsFrom loose fuel text = .ok reading) ∧
    ∀ text reading, Json.fieldsFrom strict fuel text = .ok reading →
      Json.fieldsFrom loose fuel text = .ok reading := by
  induction fuel with
  | zero =>
      refine ⟨fun text reading reads => ?_, fun text reading reads => ?_,
        fun text reading reads => ?_⟩
      · unfold Json.readValue at reads
        cases reads
      · cases reads
      · cases reads
  | succ fuel ih =>
      obtain ⟨values, items, fields⟩ := ih
      refine ⟨fun text reading reads => ?_, fun text reading reads => ?_,
        fun text reading reads => ?_⟩
      · obtain ⟨value, rest⟩ := reading
        obtain ⟨steps, c, tail, same, rfl, kind⟩ := of_readValue reads
        obtain rfl := Nat.succ.inj same
        obtain ⟨rfl, string, inside, rfl⟩ | ⟨rfl, parts, inside, rfl⟩ | ⟨rfl, parts, inside, rfl⟩ |
          ⟨other, word⟩ := kind
        · rw [readValue_quote, inside]
          rfl
        · rw [readValue_bracket, within.listBody items inside]
          rfl
        · rw [readValue_brace, within.objectBody fields inside]
          rfl
        · rw [readValue_other other]
          exact within.readWord word
      · obtain ⟨value, behind, first, goesOn⟩ := itemsFrom_eq_ok.mp reads
        refine itemsFrom_eq_ok.mpr ⟨value, behind, values _ _ first, ?_⟩
        rw [within.isBlank] at goesOn
        refine goesOn.imp_right ?_
        rintro ⟨tail, more, comma, next, same⟩
        exact ⟨tail, more, comma, items _ _ next, same⟩
      · obtain ⟨key, own, name, value, behind, first, goesOn⟩ := fieldsFrom_eq_ok.mp reads
        refine fieldsFrom_eq_ok.mpr
          ⟨key, own, (within.readKey _).symm.trans name, value, behind, values _ _ first, ?_⟩
        rw [within.isBlank] at goesOn
        refine goesOn.imp_right ?_
        rintro ⟨tail, more, comma, next, same⟩
        exact ⟨tail, more, comma, fields _ _ next, same⟩

theorem Dialect.Within.readValue {fuel : Nat} {text : List Char} {reading : Json × Rest}
    (reads : Json.readValue strict fuel text = .ok reading) :
    Json.readValue loose fuel text = .ok reading :=
  (within.readParts fuel).1 text reading reads

theorem Dialect.Within.reading_eq {fuel : Nat} {text : List Char} {reading reading' : Json × Rest}
    (reads : Json.readValue strict fuel text = .ok reading)
    (reads' : Json.readValue loose fuel text = .ok reading') : reading' = reading :=
  Except.ok.inj (reads'.symm.trans (within.readValue reads))

theorem Dialect.Within.writtenFields {text : List Char} {fields : Fields}
    (written : Json.writtenFields strict text = .ok fields) :
    Json.writtenFields loose text = .ok fields := by
  obtain ⟨tail, rest, begins, inside, blank⟩ := writtenFields_eq_ok.mp written
  rw [within.isBlank] at begins blank
  have inside' := within.objectBody (within.readParts _).2.2 inside
  exact writtenFields_eq_ok.mpr ⟨tail, rest, begins, inside', blank⟩

end

end CallTimeline.Json
