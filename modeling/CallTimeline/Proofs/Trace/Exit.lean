import CallTimeline.Proofs.Trace.Snapshot

/-!
# Entries and exits

The exit that belongs to an entry is the first line that ends the call, if this is an exit and no
call entered in between is still open (`ExitOf`). The open calls of a replay are those of the entries
that no line since has ended (`mem_openCalls_beforeLine`), so an exit belongs to an entry just if it
ends the innermost open call and this is that entry (`exitOf_iff_last`).
-/

namespace CallTimeline.Trace

namespace Reading

def givesEvent : Reading → Bool
  | .enter .. => true
  | .call .. => true
  | _ => false

end Reading

/-- How many events the lines before line `k` give. -/
def eventsBefore (readings : List Reading) (k : Nat) : Nat :=
  (readings.take k).countP Reading.givesEvent

/-- Line `j` enters a call at `depth`, and the lines between it and line `k` leave it open: those
that end calls are all deeper. -/
structure OpenUntil (readings : List Reading) (j k depth : Nat) : Prop where
  before : j < k
  enters : ∃ columns function, readings[j]? = some (.enter columns depth function)
  deeper : ∀ m, j < m → m < k → ∀ reading ∈ readings[m]?, ∀ level ∈ reading.level?, depth < level

/-- Line `x` is the first line that ends the call which line `j` enters at `depth`, it is an exit,
and of the calls entered in between none is still open. -/
structure ExitOf (readings : List Reading) (j x depth : Nat) (exit : Columns) : Prop where
  isOpen : OpenUntil readings j x depth
  leaves : ∃ level ≤ depth, readings[x]? = some (.leave exit level)
  innermost : ∀ m inner, j < m → ¬ OpenUntil readings m x inner

section

variable {readings : List Reading} {reading : Reading} {j k depth : Nat}

theorem eventsBefore_succ (h : readings[k]? = some reading) :
    eventsBefore readings (k + 1) =
      eventsBefore readings k + if reading.givesEvent then 1 else 0 := by
  rw [eventsBefore, take_succ_of_getElem? h, List.countP_append, List.countP_singleton, eventsBefore]

theorem eventsBefore_mono (le : j ≤ k) : eventsBefore readings j ≤ eventsBefore readings k := by
  have initial : readings.take j <+: readings.take k := List.take_prefix_take_left le
  exact initial.sublist.countP_le

theorem eventsBefore_lt (h : readings[j]? = some reading) (gives : reading.givesEvent = true)
    (before : j < k) : eventsBefore readings j < eventsBefore readings k := by
  have next := eventsBefore_succ h
  rw [if_pos gives] at next
  have later : eventsBefore readings (j + 1) ≤ eventsBefore readings k := eventsBefore_mono before
  omega

theorem eq_of_eventsBefore_eq {m : Nat} {other : Reading} (h : readings[j]? = some reading)
    (gives : reading.givesEvent = true) (h' : readings[m]? = some other)
    (gives' : other.givesEvent = true) (same : eventsBefore readings j = eventsBefore readings m) :
    j = m := by
  rcases Nat.lt_trichotomy j m with before | equal | after
  · have := eventsBefore_lt h gives before
    omega
  · exact equal
  · have := eventsBefore_lt h' gives' after
    omega

theorem OpenUntil.deeper_of_lt {m inner : Nat} (h : OpenUntil readings j k depth)
    (h' : OpenUntil readings m k inner) (before : j < m) : depth < inner := by
  obtain ⟨columns, function, enters⟩ := h'.enters
  exact h.deeper m before h'.before _ enters inner rfl

theorem openUntil_succ (h : readings[k]? = some reading) :
    OpenUntil readings j (k + 1) depth ↔
      (OpenUntil readings j k depth ∧ ∀ level ∈ reading.level?, depth < level) ∨
        (j = k ∧ ∃ columns function, reading = .enter columns depth function) := by
  constructor
  · intro later
    rcases Nat.lt_succ_iff_lt_or_eq.mp later.before with before | rfl
    · refine Or.inl ⟨⟨before, later.enters, ?_⟩, later.deeper k before (Nat.lt_succ_self k) _ h⟩
      exact fun m after upTo => later.deeper m after (Nat.lt_succ_of_lt upTo)
    · obtain ⟨columns, function, enters⟩ := later.enters
      exact Or.inr ⟨rfl, columns, function, Option.some.inj (h.symm.trans enters)⟩
  · rintro (⟨earlier, keeps⟩ | ⟨rfl, columns, function, rfl⟩)
    · refine ⟨Nat.lt_succ_of_lt earlier.before, earlier.enters, fun m after upTo => ?_⟩
      rcases Nat.lt_succ_iff_lt_or_eq.mp upTo with upTo | rfl
      · exact earlier.deeper m after upTo
      · intro reading' at_ level
        rw [h] at at_
        exact Option.some.inj at_ ▸ keeps level
    · exact ⟨Nat.lt_succ_self j, ⟨columns, function, h⟩, fun m after upTo => by omega⟩

theorem ExitOf.le_of_open {x : Nat} {exit : Columns} (closes : ExitOf readings j x depth exit)
    (h : OpenUntil readings j k depth) : k ≤ x := by
  obtain ⟨level, above, leaves⟩ := closes.leaves
  by_contra earlier
  have := h.deeper x closes.isOpen.before (by omega) _ leaves level rfl
  omega

theorem ExitOf.unique {x y : Nat} {exit exit' : Columns}
    (closes : ExitOf readings j x depth exit) (closes' : ExitOf readings j y depth exit') :
    y = x ∧ exit' = exit := by
  obtain rfl : y = x :=
    Nat.le_antisymm (closes.le_of_open closes'.isOpen) (closes'.le_of_open closes.isOpen)
  obtain ⟨level, -, leaves⟩ := closes.leaves
  obtain ⟨level', -, leaves'⟩ := closes'.leaves
  rw [leaves] at leaves'
  cases leaves'
  exact ⟨rfl, rfl⟩

end

namespace Replay

variable {settings : Settings}

section

variable {readings : List Reading} {reading : Reading} {j k depth level : Nat}
  {columns exit : Columns} {function : String}

theorem openCalls_read (replay : Replay) (reading : Reading) :
    (replay.read settings reading).openCalls =
      replay.openCalls.filter (fun call => reading.keeps call.frame) ++
        ((reading.opened? settings).map fun frame => ⟨frame, replay.events.size⟩).toList := by
  cases reading with
  | enter columns depth function => rfl
  | leave columns depth => exact (List.append_nil _).symm
  | call columns depth function =>
      exact ((List.append_nil _).trans (List.filter_eq_self.mpr fun _ _ => rfl)).symm
  | skip => exact ((List.append_nil _).trans (List.filter_eq_self.mpr fun _ _ => rfl)).symm

theorem keeps_frameOf (reading : Reading) (function : String) (depth : Nat) :
    reading.keeps (frameOf settings function depth) = true ↔
      ∀ level ∈ reading.level?, depth < level := by
  cases reading <;> simp [Reading.keeps, Reading.level?, frameOf]

theorem size_events_read (replay : Replay) (reading : Reading) :
    (replay.read settings reading).events.size =
      replay.events.size + if reading.givesEvent then 1 else 0 := by
  cases reading with
  | enter columns depth function => exact Array.size_push _
  | leave columns depth =>
      have length := congrArg List.length (@map_undated_leave replay columns depth)
      simp only [List.length_map, Array.length_toList] at length
      exact length
  | call columns depth function => exact Array.size_push _
  | skip => rfl

abbrev beforeLine (settings : Settings) (readings : List Reading) (k : Nat) : Replay :=
  readAll settings {} (readings.take k)

theorem beforeLine_succ (h : readings[k]? = some reading) :
    beforeLine settings readings (k + 1) = (beforeLine settings readings k).read settings reading := by
  rw [beforeLine, take_succ_of_getElem? h, readAll_append]
  rfl

theorem nested_beforeLine (settings : Settings) (readings : List Reading) (k : Nat) :
    (beforeLine settings readings k).Nested :=
  nested_empty.readAll _

theorem size_events_beforeLine (bound : k ≤ readings.length) :
    (beforeLine settings readings k).events.size = eventsBefore readings k := by
  induction k with
  | zero => rfl
  | succ k ih =>
      have h : readings[k]? = some readings[k] := List.getElem?_eq_getElem bound
      rw [beforeLine_succ h, size_events_read, ih (Nat.le_of_succ_le bound), eventsBefore_succ h]

variable (settings)

theorem mem_openCalls_beforeLine (bound : k ≤ readings.length) {call : OpenCall} :
    call ∈ (beforeLine settings readings k).openCalls ↔
      ∃ j columns depth function, readings[j]? = some (.enter columns depth function) ∧
        OpenUntil readings j k depth ∧
        call = ⟨frameOf settings function depth, eventsBefore readings j⟩ := by
  induction k with
  | zero =>
      constructor
      · intro member
        cases member
      · rintro ⟨j, columns, depth, function, -, open_, -⟩
        exact absurd open_.before (Nat.not_lt_zero j)
  | succ k ih =>
      have h : readings[k]? = some readings[k] := List.getElem?_eq_getElem bound
      have earlier := Nat.le_of_succ_le bound
      generalize readings[k] = reading at h
      -- Open behind line `k` are the calls that it keeps and the one that it enters.
      rw [beforeLine_succ h, openCalls_read, List.mem_append, List.mem_filter, ih earlier,
        size_events_beforeLine earlier]
      constructor
      · rintro (⟨⟨j, columns, depth, function, enters, open_, rfl⟩, keeps⟩ | opened)
        · have kept := (keeps_frameOf reading function depth).mp keeps
          exact ⟨j, columns, depth, function, enters, (openUntil_succ h).mpr (.inl ⟨open_, kept⟩), rfl⟩
        · cases reading with
          | enter columns depth function =>
              refine ⟨k, columns, depth, function, h,
                (openUntil_succ h).mpr (.inr ⟨rfl, columns, function, rfl⟩), ?_⟩
              simpa [Reading.opened?] using opened
          | leave columns depth => simp [Reading.opened?] at opened
          | call columns depth function => simp [Reading.opened?] at opened
          | skip => simp [Reading.opened?] at opened
      · rintro ⟨j, columns, depth, function, enters, open_, rfl⟩
        rcases (openUntil_succ h).mp open_ with ⟨open_, keeps⟩ | ⟨rfl, -⟩
        · exact .inl ⟨⟨j, columns, depth, function, enters, open_, rfl⟩,
            (keeps_frameOf reading function depth).mpr keeps⟩
        · rw [h] at enters
          cases enters
          exact .inr (by simp [Reading.opened?])

theorem last_openCalls_beforeLine (bound : k ≤ readings.length) {top : OpenCall}
    (last : (beforeLine settings readings k).openCalls.getLast? = some top) :
    ∃ j columns depth function, readings[j]? = some (.enter columns depth function) ∧
      OpenUntil readings j k depth ∧
      top = ⟨frameOf settings function depth, eventsBefore readings j⟩ ∧
      ∀ m inner, j < m → ¬ OpenUntil readings m k inner := by
  obtain ⟨outer, split⟩ := List.getLast?_eq_some_iff.mp last
  have member : top ∈ (beforeLine settings readings k).openCalls := by simp [split]
  obtain ⟨j, columns, depth, function, enters, open_, rfl⟩ :=
    (mem_openCalls_beforeLine settings bound).mp member
  refine ⟨j, columns, depth, function, enters, open_, rfl, fun m inner after inside => ?_⟩
  -- A call entered later would be deeper than the innermost one.
  have deeper := open_.deeper_of_lt inside after
  obtain ⟨columns', function', enters'⟩ := inside.enters
  have among := (mem_openCalls_beforeLine settings bound).mpr
    ⟨m, columns', inner, function', enters', inside, rfl⟩
  have sorted := (List.pairwise_append.mp (split ▸ (nested_beforeLine _ _ _).deeper)).2.2
  rw [split, List.mem_append, List.mem_singleton] at among
  rcases among with around | same
  · have shallower := sorted _ around _ (List.mem_singleton_self _)
    simp only [frameOf] at shallower
    omega
  · have := congrArg (·.frame.depth) same
    simp only [frameOf] at this
    omega

theorem exitOf_iff_last (h : readings[k]? = some (.leave exit level))
    (enters : readings[j]? = some (.enter columns depth function)) :
    ExitOf readings j k depth exit ↔
      ∃ top ∈ (beforeLine settings readings k).openCalls.getLast?,
        (level : Int) ≤ top.frame.depth ∧ top.event = eventsBefore readings j := by
  have bound : k ≤ readings.length := by
    obtain ⟨inside, -⟩ := List.getElem?_eq_some_iff.mp h
    exact Nat.le_of_lt inside
  constructor
  · intro closes
    have among := (mem_openCalls_beforeLine settings bound).mpr
      ⟨j, columns, depth, function, enters, closes.isOpen, rfl⟩
    obtain ⟨top, last⟩ := Option.isSome_iff_exists.mp
      (List.getLast?_isSome.mpr (List.ne_nil_of_mem among))
    obtain ⟨m, columns', inner, function', enters', open_, rfl, innermost⟩ :=
      last_openCalls_beforeLine settings bound last
    -- Both are innermost among the open calls, so neither comes after the other.
    have same : m = j := by
      rcases Nat.lt_trichotomy m j with before | equal | after
      · exact absurd closes.isOpen (innermost j depth before)
      · exact equal
      · exact absurd open_ (closes.innermost m inner after)
    subst same
    rw [enters] at enters'
    cases enters'
    obtain ⟨level', above, leaves⟩ := closes.leaves
    rw [h] at leaves
    cases leaves
    exact ⟨_, last, by simpa [frameOf] using above, rfl⟩
  · rintro ⟨top, last, deep, number⟩
    obtain ⟨m, columns', inner, function', enters', open_, rfl, innermost⟩ :=
      last_openCalls_beforeLine settings bound last
    obtain rfl := eq_of_eventsBefore_eq enters' rfl enters rfl number
    rw [enters] at enters'
    cases enters'
    exact ⟨open_, ⟨level, by simpa [frameOf] using deep, h⟩, innermost⟩

end

end Replay

end CallTimeline.Trace
