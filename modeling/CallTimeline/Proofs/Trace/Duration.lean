import CallTimeline.Proofs.Timeline.Entries
import CallTimeline.Proofs.Trace.Growth

/-!
# Durations

All open calls are without a duration, so an exit writes at most into the innermost of them
(`Nested.events_leave`), and what is written stays (`Nested.keepsDurations_readAll`). So an entry has
the duration of the exit that belongs to it, and none without one (`durations_eq_exits`).
-/

namespace CallTimeline.Trace

namespace Replay

variable {settings : Settings} {replay : Replay}

theorem Nested.closing?_eq (h : replay.Nested) (depth : Nat) :
    replay.closing? depth =
      replay.openCalls.getLast?.filter fun call => (depth : Int) ≤ call.frame.depth := by
  rcases List.eq_nil_or_concat' replay.openCalls with empty | ⟨outer, top, split⟩
  · simp [closing?, empty]
  · have above := (List.pairwise_append.mp (split ▸ h.deeper)).2.2
    obtain ⟨event, at_, -, undated⟩ := h.undated (show top ∈ replay.openCalls by simp [split])
    rw [closing?, split, List.reverse_append, List.reverse_singleton, List.singleton_append,
      List.getLast?_concat, List.find?_cons, Option.filter_some]
    by_cases deep : (depth : Int) ≤ top.frame.depth
    · simp [deep, at_, undated]
    · -- The innermost call is too shallow, and so are those around it.
      simp only [deep, decide_false, Bool.false_and, Bool.false_eq_true, if_false]
      rw [List.find?_eq_none]
      intro call member
      have := above call (List.mem_reverse.mp member) top (List.mem_singleton_self top)
      simp only [Bool.and_eq_true, decide_eq_true_eq, not_and]
      omega

theorem Nested.events_leave (h : replay.Nested) (exit : Columns) (depth : Nat) :
    (∀ top ∈ replay.openCalls.getLast?, (depth : Int) ≤ top.frame.depth →
      (replay.leave exit depth).events =
        replay.events.modify top.event (Event.timed (duration exit.duration))) ∧
    ((∀ top ∈ replay.openCalls.getLast?, top.frame.depth < depth) →
      (replay.leave exit depth).events = replay.events) := by
  constructor
  · intro top last deep
    rw [Option.mem_def] at last
    rw [Replay.leave, h.closing?_eq, last, Option.filter_some, if_pos (decide_eq_true deep)]
    rfl
  · intro shallow
    have nothing : replay.closing? depth = none := by
      rw [h.closing?_eq, Option.filter_eq_none_iff]
      intro top last
      have := shallow top last
      simp only [decide_eq_true_eq]
      omega
    rw [Replay.leave, nothing]

theorem Nested.getElem?_events_leave (h : replay.Nested) (exit : Columns) (depth : Nat) {i : Nat}
    (other : ¬ ∃ top ∈ replay.openCalls.getLast?,
      (depth : Int) ≤ top.frame.depth ∧ top.event = i) :
    (replay.leave exit depth).events[i]? = replay.events[i]? := by
  by_cases closes : ∃ top ∈ replay.openCalls.getLast?, (depth : Int) ≤ top.frame.depth
  · obtain ⟨top, last, deep⟩ := closes
    have ne : top.event ≠ i := fun same => other ⟨top, last, deep, same⟩
    rw [(h.events_leave exit depth).1 top last deep, Array.getElem?_modify, if_neg ne]
  · have shallow : ∀ top ∈ replay.openCalls.getLast?, top.frame.depth < depth := by
      intro top last
      by_contra deep
      exact closes ⟨top, last, by omega⟩
    rw [(h.events_leave exit depth).2 shallow]

def KeepsDurations (before after : Array Event) : Prop :=
  ∀ (i : Nat) (event : Event) (v : Float), before[i]? = some event → event.duration = some v →
    ∃ later, after[i]? = some later ∧ later.duration = some v

theorem Nested.keepsDurations_readAll (h : replay.Nested) (readings : List Reading) :
    KeepsDurations replay.events (replay.readAll settings readings).events := by
  intro i event v at_ dated
  obtain ⟨later, at_later, becomes⟩ := @grows_readAll settings _ h readings i event at_
  exact ⟨later, at_later, becomes.eq_of_dated dated ▸ dated⟩

section

variable {readings : List Reading} {reading : Reading} {j k depth : Nat} {columns : Columns}
  {function : String}

variable (settings)

theorem getElem?_events_read {event : Event} (h : readings[k]? = some reading)
    (enters : readings[j]? = some (.enter columns depth function))
    (at_ : (beforeLine settings readings k).events[eventsBefore readings j]? = some event)
    (other : ∀ exit, ¬ ExitOf readings j k depth exit) :
    (beforeLine settings readings (k + 1)).events[eventsBefore readings j]? = some event := by
  rw [beforeLine_succ h]
  cases reading with
  | enter columns depth function => exact getElem?_push_of_some at_ _
  | leave exit level =>
      have untouched := ((nested_beforeLine _ _ _).getElem?_events_leave exit level fun found =>
        other exit ((exitOf_iff_last settings h enters).mpr found)).trans at_
      exact untouched
  | call columns depth function => exact getElem?_push_of_some at_ _
  | skip => exact at_

theorem getElem?_events_exit {event : Event} {exit : Columns}
    (closes : ExitOf readings j k depth exit)
    (enters : readings[j]? = some (.enter columns depth function))
    (at_ : (beforeLine settings readings k).events[eventsBefore readings j]? = some event) :
    (beforeLine settings readings (k + 1)).events[eventsBefore readings j]? =
      some (event.timed (duration exit.duration)) := by
  obtain ⟨level, -, leaves⟩ := closes.leaves
  obtain ⟨top, last, deep, number⟩ := (exitOf_iff_last settings leaves enters).mp closes
  have modified := ((nested_beforeLine _ _ _).events_leave exit level).1 top last deep
  have written : (beforeLine settings readings (k + 1)).events =
      ((beforeLine settings readings k).leave exit level).events := by
    rw [beforeLine_succ leaves]
    rfl
  rw [written, modified, number, Array.getElem?_modify, if_pos rfl, at_, Option.map_some]

theorem entry_beforeLine (bound : k ≤ readings.length)
    (enters : readings[j]? = some (.enter columns depth function)) (earlier : j < k) :
    ∃ event, (beforeLine settings readings k).events[eventsBefore readings j]? = some event ∧
      event.kind = .entry ∧ event.function = function ∧ event.depth = depth ∧
      ∀ v, event.duration = some v ↔
        ∃ x exit, x < k ∧ ExitOf readings j x depth exit ∧ v = duration exit.duration := by
  -- The induction is on the lines that have been read. Line `j` gives the event, its exit the
  -- duration.
  induction k with
  | zero => exact absurd earlier (Nat.not_lt_zero j)
  | succ k ih =>
      have h : readings[k]? = some readings[k] := List.getElem?_eq_getElem bound
      have within := Nat.le_of_succ_le bound
      rcases Nat.lt_succ_iff_lt_or_eq.mp earlier with earlier | rfl
      · obtain ⟨event, at_, kind, function_eq, depth_eq, dated⟩ := ih within earlier
        by_cases closes : ∃ exit, ExitOf readings j k depth exit
        · obtain ⟨exit, closes⟩ := closes
          refine ⟨event.timed (duration exit.duration),
            getElem?_events_exit settings closes enters at_, kind, function_eq, depth_eq,
            fun v => ⟨fun same => ?_, ?_⟩⟩
          · exact ⟨k, exit, Nat.lt_succ_self k, closes, (Option.some.inj same).symm⟩
          · rintro ⟨x, exit', -, closes', rfl⟩
            obtain ⟨rfl, rfl⟩ := closes.unique closes'
            rfl
        · have other : ∀ exit, ¬ ExitOf readings j k depth exit := fun exit found =>
            closes ⟨exit, found⟩
          refine ⟨event, getElem?_events_read settings h enters at_ other, kind, function_eq,
            depth_eq, fun v => (dated v).trans ⟨?_, ?_⟩⟩
          · rintro ⟨x, exit, upTo, rest⟩
            exact ⟨x, exit, Nat.lt_succ_of_lt upTo, rest⟩
          · rintro ⟨x, exit, upTo, closes', same⟩
            rcases Nat.lt_succ_iff_lt_or_eq.mp upTo with upTo | rfl
            · exact ⟨x, exit, upTo, closes', same⟩
            · exact absurd closes' (other exit)
      -- Line `j` has just been read, so no exit can have come yet.
      · refine ⟨(beforeLine settings readings j).nextEvent settings columns function .entry depth
          none, ?_, rfl, rfl, rfl, fun v => ⟨fun dated => ?_, ?_⟩⟩
        · rw [beforeLine_succ enters, ← size_events_beforeLine within]
          exact Array.getElem?_push_size
        · cases dated
        · rintro ⟨x, exit, upTo, closes, -⟩
          have := closes.isOpen.before
          omega

end

theorem run_take {lines : List (List Char)} {readings : List Reading}
    (read : lines.mapM (Reading.ofLine settings) = .ok readings) (k : Nat) :
    run settings (lines.take k) = .ok (beforeLine settings readings k) := by
  exact run_of_readings settings (mapM_take_ok read k)

theorem beforeLine_length (readings : List Reading) :
    beforeLine settings readings readings.length = readAll settings {} readings := by
  rw [beforeLine, List.take_length]

theorem readAll_before (readings : List Reading) (k : Nat) :
    readAll settings {} readings =
      (beforeLine settings readings k).readAll settings (readings.drop k) := by
  rw [beforeLine, ← readAll_append, List.take_append_drop]

/-- Exits and entries belong together one to one. An entry has the duration of its exit, if there is
one, and else none, which the timeline shows as zero. Before every line, no open call has a duration
and no duration is written twice; an exit writes its own into the innermost open call, if this is as
deep as the exit or deeper, and nothing otherwise. -/
theorem durations_eq_exits {lines : List (List Char)} (h : run settings lines = .ok replay) :
    ∃ readings, lines.mapM (Reading.ofLine settings) = .ok readings ∧
      (∀ (j : Nat) columns depth function, readings[j]? = some (.enter columns depth function) →
        ∃ event, replay.events[eventsBefore readings j]? = some event ∧
          event.kind = .entry ∧ event.function = function ∧ event.depth = depth ∧
          ∀ v, event.duration = some v ↔
            ∃ x exit, ExitOf readings j x depth exit ∧ v = duration exit.duration) ∧
      (∀ (i : Nat) event, replay.events[i]? = some event → event.duration = none →
        ∃ entry, (Timeline.ofReplay settings replay).entries[i]? = some entry ∧
          entry.duration = 0.0) ∧
      ∀ k ≤ lines.length, ∃ before, run settings (lines.take k) = .ok before ∧
        (∀ call ∈ before.openCalls,
          ∃ event, before.events[call.event]? = some event ∧ event.duration = none) ∧
        (∀ (i : Nat) event v, before.events[i]? = some event → event.duration = some v →
          ∃ later, replay.events[i]? = some later ∧ later.duration = some v) ∧
        ∀ exit depth, readings[k]? = some (.leave exit depth) →
          ∃ after, run settings (lines.take (k + 1)) = .ok after ∧
            (∀ top ∈ before.openCalls.getLast?, (depth : Int) ≤ top.frame.depth →
              after.events =
                before.events.modify top.event (Event.timed (duration exit.duration))) ∧
            ((∀ top ∈ before.openCalls.getLast?, top.frame.depth < depth) →
              after.events = before.events) := by
  obtain ⟨readings, read, rfl⟩ := readings_of_run settings h
  refine ⟨readings, read, ?_, ?_, fun k bound => ⟨_, run_take read k, ?_, ?_, ?_⟩⟩
  · intro j columns depth function enters
    obtain ⟨inside, -⟩ := List.getElem?_eq_some_iff.mp enters
    obtain ⟨event, at_, kind, function_eq, depth_eq, dated⟩ :=
      entry_beforeLine settings (Nat.le_refl _) enters inside
    rw [beforeLine_length] at at_
    refine ⟨event, at_, kind, function_eq, depth_eq, fun v => (dated v).trans ?_⟩
    constructor
    · rintro ⟨x, exit, -, closes⟩
      exact ⟨x, exit, closes⟩
    · rintro ⟨x, exit, closes, same⟩
      obtain ⟨level, -, leaves⟩ := closes.leaves
      obtain ⟨within, -⟩ := List.getElem?_eq_some_iff.mp leaves
      exact ⟨x, exit, within, closes, same⟩
  · intro i event at_ undated
    exact Timeline.entry_of_undated settings (numbered_empty.readAll readings) at_ undated
  · intro call member
    obtain ⟨event, at_, -, undated⟩ := (nested_beforeLine settings readings k).undated member
    exact ⟨event, at_, undated⟩
  · intro i event v at_ dated
    rw [readAll_before readings k]
    exact (nested_beforeLine _ _ _).keepsDurations_readAll _ i event v at_ dated
  · intro exit depth leaves
    have written := (nested_beforeLine settings readings k).events_leave exit depth
    refine ⟨_, run_take read (k + 1), ?_⟩
    rw [beforeLine_succ leaves]
    exact written

def outerExit : Columns where
  cpu := 0
  task := []
  duration := " 7.0 us ".toList
  indent := 0
  body := ['\x7d']

def oneExitMissing : List Reading := [
  .enter { cpu := 0, task := [], duration := "   ".toList, indent := 0, body := "a() \x7b".toList }
    0 "a",
  .enter { cpu := 0, task := [], duration := "   ".toList, indent := 2, body := "b() \x7b".toList }
    1 "b",
  .leave outerExit 0]

theorem durations_eq_exits_missing_exit :
    let lines := ["0)   |a() \x7b".toList, "0)   |  b() \x7b".toList, "0) 7.0 us |\x7d".toList]
    ∃ replay, run {} lines = .ok replay ∧
      (∃ inner, replay.events[1]? = some inner ∧
        inner.duration = some (duration outerExit.duration)) ∧
      ∃ outer, replay.events[0]? = some outer ∧ outer.duration = none := by
  intro lines
  have reads : lines.mapM (Reading.ofLine {}) = .ok oneExitMissing := by rfl
  have runs : run {} lines = .ok _ := run_take reads 3
  obtain ⟨readings, read, entries, -, -⟩ := durations_eq_exits runs
  obtain rfl : oneExitMissing = readings := Except.ok.inj (reads.symm.trans read)
  have isOpen : OpenUntil oneExitMissing 1 2 1 :=
    ⟨by decide, ⟨_, _, rfl⟩, fun m after upTo => by omega⟩
  have closes : ExitOf oneExitMissing 1 2 1 outerExit := by
    refine ⟨isOpen, ⟨0, by decide, rfl⟩, fun m inner after open_ => ?_⟩
    have := open_.before
    omega
  obtain ⟨inner, at_inner, -, -, -, dated⟩ := entries 1 _ _ _ rfl
  obtain ⟨outer, at_outer, -, -, -, undated⟩ := entries 0 _ _ _ rfl
  refine ⟨_, runs, ⟨inner, at_inner, (dated _).mpr ⟨2, _, closes, rfl⟩⟩, outer, at_outer, ?_⟩
  cases h : outer.duration with
  | none => rfl
  | some v =>
      obtain ⟨x, exit, other, -⟩ := (undated v).mp h
      obtain ⟨level, -, leaves⟩ := other.leaves
      -- Only line two is an exit, and the inner call is still open before it.
      obtain rfl : x = 2 := by
        match x, leaves with
        | 2, _ => rfl
      exact absurd isOpen (other.innermost 1 1 (by decide))

end Replay

end CallTimeline.Trace
