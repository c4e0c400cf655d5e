import CallTimeline.Proofs.Trace.Exit
import CallTimeline.Proofs.Trace.Names

namespace CallTimeline.Trace

open Text

def cpuDigits? (line : List Char) : Option (List Char) := do
  let text := (chomp line).dropWhile isBlank
  guard (!(text.isEmpty || text.head? == some '#'))
  let (digits, rest) ← cpuColumn? ((skipTime? text).getD text)
  let _ ← innerColumns? rest
  return digits

/-- A line with columns whose cpu number has more digits than a number may be written with. -/
def Overlong (line : List Char) : Prop :=
  ∃ digits ∈ cpuDigits? line, Number.digitLimit < digits.length

instance : DecidablePred Overlong := fun line =>
  inferInstanceAs (Decidable (∃ digits ∈ cpuDigits? line, Number.digitLimit < digits.length))

theorem columns_ofLine (line : List Char) :
    (∃ columns, Columns.ofLine line = .ok columns ∧ ¬ Overlong line) ∨
      ∃ digits, cpuDigits? line = some digits ∧ Number.digitLimit < digits.length ∧
        Columns.ofLine line = .error (.tooManyDigits digits.length) := by
  unfold Columns.ofLine Overlong cpuDigits?
  generalize (chomp line).dropWhile isBlank = text
  dsimp only
  split
  case isTrue blank => exact .inl ⟨none, rfl, by simp [blank]⟩
  case isFalse printed =>
    rw [Bool.not_eq_true] at printed
    cases column : cpuColumn? ((skipTime? text).getD text) with
    | none => exact .inl ⟨none, rfl, by simp⟩
    | some found =>
        obtain ⟨digits, rest⟩ := found
        cases inner : innerColumns? rest with
        | none => exact .inl ⟨none, by simp only [inner], by simp [inner]⟩
        | some columns =>
            obtain ⟨task, duration, indent, body⟩ := columns
            by_cases long : Number.digitLimit < digits.length
            · refine .inr ⟨digits, by simp [printed, inner], long, ?_⟩
              simp only [inner, cpuNumber, if_pos long]
              rfl
            · refine .inl ⟨_, by simp only [inner, cpuNumber, if_neg long]; rfl, ?_⟩
              simpa [printed, inner] using long

theorem cpuDigits?_append {digits rest : List Char} (filled : digits ≠ [])
    (ascii : ∀ c ∈ digits, c.isDigit = true) (columns : (innerColumns? rest).isSome)
    (last : ∃ c ∈ rest.getLast?, c ≠ '\r' ∧ c ≠ '\n') :
    cpuDigits? (digits ++ ')' :: rest) = some digits := by
  have all (c : Char) (member : c ∈ digits) : isDigit c = true :=
    isDigit_of_isDigit (ascii c member)
  have line : digits ++ ')' :: rest = front none digits ++ rest ++ [] := by simp [front]
  obtain ⟨found, inner⟩ := Option.isSome_iff_exists.mp columns
  rw [cpuDigits?, line, dropWhile_chomp_front filled all none last (by simp),
    isHeading_front filled all, cpuColumn?_front filled all]
  simp [inner]

namespace Reading

variable (settings : Settings)

theorem ofColumns_ok (columns : Columns) :
    ∃ reading, ofColumns settings columns = .ok reading := by
  unfold ofColumns
  cases read : Body.read? columns.body with
  | none => exact ⟨_, rfl⟩
  | some body =>
      cases body with
      | leave => exact ⟨_, rfl⟩
      | enter token =>
          obtain ⟨function, name, -⟩ := functionName_of_read? (.inl read)
          exact ⟨_, by simp only [name]; rfl⟩
      | call token =>
          obtain ⟨function, name, -⟩ := functionName_of_read? (.inr read)
          exact ⟨_, by simp only [name]; rfl⟩

theorem ofLine_eq_ok {line : List Char} (short : ¬ Overlong line) :
    ∃ reading, ofLine settings line = .ok reading := by
  obtain ⟨columns, columns_eq, -⟩ | ⟨digits, found, long, -⟩ := columns_ofLine line
  · rw [ofLine, columns_eq]
    cases columns with
    | none => exact ⟨.skip, rfl⟩
    | some columns => exact ofColumns_ok settings columns
  · exact absurd ⟨digits, found, long⟩ short

theorem ofLine_eq_error {line digits : List Char} (found : cpuDigits? line = some digits)
    (long : Number.digitLimit < digits.length) :
    ofLine settings line = .error (.tooManyDigits digits.length) := by
  obtain ⟨-, -, short⟩ | ⟨digits', found', -, columns_eq⟩ := columns_ofLine line
  · exact absurd ⟨digits, found, long⟩ short
  · rw [found] at found'
    cases found'
    rw [ofLine, columns_eq]
    rfl

def isLeave : Reading → Bool
  | leave .. => true
  | _ => false

def isSkip : Reading → Bool
  | skip => true
  | _ => false

theorem countP_kinds (readings : List Reading) :
    readings.countP isSkip + readings.countP givesEvent + readings.countP isLeave =
      readings.length := by
  induction readings with
  | nil => rfl
  | cons reading rest ih =>
      have one : (if reading.isSkip then 1 else 0) + (if reading.givesEvent then 1 else 0) +
          (if reading.isLeave then 1 else 0) = 1 := by
        cases reading <;> rfl
      rw [List.countP_cons, List.countP_cons, List.countP_cons, List.length_cons]
      omega

end Reading

namespace Replay

variable (settings : Settings)

theorem linesRead_readAll (replay : Replay) (readings : List Reading) :
    (replay.readAll settings readings).linesRead = replay.linesRead + readings.length := by
  induction readings generalizing replay with
  | nil => rfl
  | cons reading rest ih =>
      have one : (replay.read settings reading).linesRead = replay.linesRead + 1 := by
        cases reading <;> rfl
      rw [readAll_cons, ih, one, List.length_cons]
      omega

theorem linesSkipped_readAll (replay : Replay) (readings : List Reading) :
    (replay.readAll settings readings).linesSkipped =
      replay.linesSkipped + readings.countP Reading.isSkip := by
  induction readings generalizing replay with
  | nil => rfl
  | cons reading rest ih =>
      have one : (replay.read settings reading).linesSkipped =
          replay.linesSkipped + if reading.isSkip then 1 else 0 := by
        cases reading <;> rfl
      rw [readAll_cons, ih, one, List.countP_cons]
      omega

theorem size_events_readAll (readings : List Reading) :
    (readAll settings {} readings).events.size = readings.countP Reading.givesEvent := by
  have whole := @size_events_beforeLine settings readings _ (Nat.le_refl readings.length)
  rwa [beforeLine, eventsBefore, List.take_length] at whole

theorem run_of_overlong {before after : List (List Char)} {line digits : List Char}
    (short : ∀ earlier ∈ before, ¬ Overlong earlier) (found : cpuDigits? line = some digits)
    (long : Number.digitLimit < digits.length) :
    run settings (before ++ line :: after) = .error (.tooManyDigits digits.length) := by
  obtain ⟨readings, read⟩ :=
    mapM_ok_of_forall fun earlier member => Reading.ofLine_eq_ok settings (short earlier member)
  rw [run_eq, List.mapM_append, List.mapM_cons, read, Reading.ofLine_eq_error settings found long]
  rfl

theorem run_of_short {lines : List (List Char)} (short : ∀ line ∈ lines, ¬ Overlong line) :
    ∃ replay, run settings lines = .ok replay := by
  obtain ⟨readings, read⟩ :=
    mapM_ok_of_forall fun line member => Reading.ofLine_eq_ok settings (short line member)
  exact ⟨_, run_of_readings settings read⟩

theorem exists_first_overlong {lines : List (List Char)} (long : ∃ line ∈ lines, Overlong line) :
    ∃ before line after digits, lines = before ++ line :: after ∧
      (∀ earlier ∈ before, ¬ Overlong earlier) ∧ cpuDigits? line = some digits ∧
      Number.digitLimit < digits.length := by
  obtain ⟨long, member, overlong⟩ := long
  let isShort (line : List Char) : Bool := decide (¬ Overlong line)
  obtain ⟨line, after, split⟩ :=
    List.exists_cons_of_ne_nil (l := lines.dropWhile isShort) fun empty => by
      have := List.dropWhile_eq_nil_iff.mp empty long member
      simp [isShort, overlong] at this
  have lines_eq : lines = lines.takeWhile isShort ++ line :: after := by
    rw [← split, List.takeWhile_append_dropWhile]
  have early : ∀ earlier ∈ lines.takeWhile isShort, ¬ Overlong earlier :=
    fun earlier among => of_decide_eq_true (List.mem_takeWhile_imp (p := isShort) among)
  have stops : ¬ isShort line = true := by
    have := List.head?_dropWhile_not isShort lines
    simpa [split] using this
  obtain ⟨digits, found, tooLong⟩ : Overlong line := by simpa [isShort] using stops
  exact ⟨_, line, after, digits, lines_eq, early, found, tooLong⟩

/-- A run takes every line in: as a call that is entered, made or left, or among those that are
skipped. The one thing that stops it is a line with columns whose cpu number has too many digits,
and then it is the first of these lines that does. -/
theorem run_ok_or_overlong (lines : List (List Char)) :
    ((∀ line ∈ lines, ¬ Overlong line) ∧
      ∃ replay readings, run settings lines = .ok replay ∧
        lines.mapM (Reading.ofLine settings) = .ok readings ∧
        replay.linesRead = lines.length ∧
        replay.linesSkipped = readings.countP Reading.isSkip ∧
        replay.events.size = readings.countP Reading.givesEvent ∧
        replay.linesSkipped + replay.events.size + readings.countP Reading.isLeave =
          lines.length) ∨
      ∃ before line after digits, lines = before ++ line :: after ∧
        (∀ earlier ∈ before, ¬ Overlong earlier) ∧ cpuDigits? line = some digits ∧
        Number.digitLimit < digits.length ∧
        run settings lines = .error (.tooManyDigits digits.length) := by
  by_cases short : ∀ line ∈ lines, ¬ Overlong line
  · obtain ⟨readings, read⟩ :=
      mapM_ok_of_forall fun line member => Reading.ofLine_eq_ok settings (short line member)
    have counted : readings.length = lines.length := length_of_mapM_ok read
    have skipped := linesSkipped_readAll settings {} readings
    rw [Nat.zero_add] at skipped
    have events := size_events_readAll settings readings
    refine .inl ⟨short, _, readings, by rw [run_eq, read]; rfl, read, ?_, skipped, events, ?_⟩
    · rw [linesRead_readAll, counted, Nat.zero_add]
    · rw [skipped, events, Reading.countP_kinds, counted]
  · push Not at short
    obtain ⟨before, line, after, digits, rfl, early, found, long⟩ := exists_first_overlong short
    exact .inr ⟨before, line, after, digits, rfl, early, found, long,
      run_of_overlong settings early found long⟩

def longLine (count : Nat) : List Char :=
  List.replicate count '9' ++ ')' :: "   |f();".toList

theorem cpuDigits?_longLine {count : Nat} (some : count ≠ 0) :
    cpuDigits? (longLine count) = .some (List.replicate count '9') := by
  refine cpuDigits?_append ?_ ?_ (by decide) (by simp)
  · simpa using some
  · intro c member
    rw [List.eq_of_mem_replicate member]
    rfl

theorem overlong_longLine {count : Nat} (long : Number.digitLimit < count) :
    Overlong (longLine count) :=
  ⟨_, cpuDigits?_longLine (Nat.ne_of_gt (Nat.zero_lt_of_lt long)), by rwa [List.length_replicate]⟩

theorem run_stops_at_long_number :
    run {} [longLine 4301] = .error (.tooManyDigits 4301) := by
  have long : Number.digitLimit < (List.replicate 4301 '9').length := by
    rw [List.length_replicate]
    decide
  have stops : run {} ([] ++ longLine 4301 :: []) = _ :=
    run_of_overlong {} (by simp) (cpuDigits?_longLine (by decide)) long
  rwa [List.length_replicate] at stops

end Replay

end CallTimeline.Trace
