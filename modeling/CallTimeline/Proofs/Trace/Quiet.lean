import CallTimeline.Proofs.Trace.Forest
import CallTimeline.Proofs.Trace.Parts

/-!
# Quiet lines

A line is quiet if it opens no call and ends none: a call on one line, or nothing. It leaves the open
calls as they were, so a replay without it goes on alike in all events but that of the line
(`Nested.alike_quiet`, `Alike.readAll_allBut`). So a trace without the line gives the same events,
with the numbers that are theirs now (`run_without_quiet`).
-/

namespace CallTimeline.Trace

def Reading.isQuiet : Reading → Bool
  | .call .. => true
  | .skip => true
  | _ => false

def allBut (number : Option Int) : Part where
  has event := some event.seq != number
  has_undated _ := rfl

theorem has_allBut {number : Option Int} {event : Event} (other : ∀ n ∈ number, event.seq ≠ n) :
    (allBut number).has event = true := by
  refine bne_iff_ne.mpr fun same => ?_
  exact other event.seq same.symm rfl

theorem filter_allBut_own (own : Option Event) :
    own.toList.filter (allBut (own.map (·.seq))).has = [] := by
  cases own <;> simp [allBut]

namespace Replay

variable {settings : Settings} {replay alone : Replay} {reading : Reading}

theorem seq_added? {event : Event} (adds : event ∈ replay.added? settings reading) :
    event.seq = replay.events.size + 1 := by
  cases reading with
  | enter columns depth function => cases adds; rfl
  | call columns depth function => cases adds; rfl
  | leave columns depth => cases adds
  | skip => cases adds

theorem isSome_added? (replay : Replay) (reading : Reading) :
    (replay.added? settings reading).isSome = reading.givesEvent := by
  cases reading <;> rfl

theorem events_read_of_quiet (replay : Replay) (quiet : reading.isQuiet = true) :
    (replay.read settings reading).events.toList =
      replay.events.toList ++ (replay.added? settings reading).toList := by
  cases reading with
  | enter columns depth function => cases quiet
  | call columns depth function => exact Array.toList_push
  | leave columns depth => cases quiet
  | skip => exact (List.append_nil _).symm

theorem openCalls_read_of_quiet (replay : Replay) (quiet : reading.isQuiet = true) :
    (replay.read settings reading).openCalls = replay.openCalls := by
  cases reading with
  | enter columns depth function => cases quiet
  | call columns depth function => rfl
  | leave columns depth => cases quiet
  | skip => rfl

theorem Numbered.seq_of_mem (h : replay.Numbered) {event : Event}
    (member : event ∈ replay.events.toList) : ∃ i < replay.events.size, event.seq = i + 1 := by
  obtain ⟨i, at_⟩ := List.mem_iff_getElem?.mp member
  rw [Array.getElem?_toList] at at_
  obtain ⟨inside, -⟩ := Array.getElem?_eq_some_iff.mp at_
  exact ⟨i, inside, h i event at_⟩

theorem Numbered.eq_numbered (h : replay.Numbered) {events : List Event}
    (same : replay.events.toList.map Event.unnumbered = events.map Event.unnumbered) :
    replay.events.toList = numbered 1 events := by
  apply List.ext_getElem? fun i => ?_
  have here := congrArg (·[i]?) same
  simp only [List.getElem?_map] at here
  rw [numbered, List.getElem?_map, List.getElem?_zipIdx]
  cases at_ : replay.events.toList[i]? with
  | none =>
      rw [at_, Option.map_none] at here
      rw [Option.map_eq_none_iff.mp here.symm]
      rfl
  | some event =>
      rw [at_, Option.map_some] at here
      obtain ⟨other, at_other, same⟩ := Option.map_eq_some_iff.mp here.symm
      rw [Array.getElem?_toList] at at_
      have number := h i event at_
      rw [at_other, Option.map_some, Option.map_some]
      congr 1
      calc event = { event.unnumbered with seq := event.seq } := rfl
        _ = { other with seq := ((1 + i : Nat) : Int) } := by
          rw [← same, number]
          simp [Event.unnumbered]
          omega

theorem Numbered.eventsIn_allBut (h : replay.Numbered) {first later : List Event}
    {own : Option Event} (split : replay.events.toList = first ++ own.toList ++ later) :
    replay.eventsIn (allBut (own.map (·.seq))) = first ++ later := by
  have seq (i : Nat) (event : Event) (at_ : (first ++ own.toList ++ later)[i]? = some event) :
      event.seq = i + 1 := by
    rw [← split, Array.getElem?_toList] at at_
    exact h i event at_
  have number (n : Int) (among : n ∈ own.map (·.seq)) : n = first.length + 1 := by
    obtain ⟨event, rfl, rfl⟩ := Option.map_eq_some_iff.mp among
    exact seq first.length event (by simp)
  -- Events are numbered by their places, so no other has the number of the one in the middle.
  have keepsFirst : first.filter (allBut (own.map (·.seq))).has = first := by
    refine List.filter_eq_self.mpr fun event member => has_allBut fun n among => ?_
    obtain ⟨i, at_⟩ := List.mem_iff_getElem?.mp member
    obtain ⟨inside, -⟩ := List.getElem?_eq_some_iff.mp at_
    have before := seq i event (by rw [List.append_assoc, List.getElem?_append_left inside, at_])
    have := number n among
    omega
  have keepsLater : later.filter (allBut (own.map (·.seq))).has = later := by
    refine List.filter_eq_self.mpr fun event member => has_allBut fun n among => ?_
    obtain ⟨i, at_⟩ := List.mem_iff_getElem?.mp member
    have behind := seq ((first ++ own.toList).length + i) event (by
      rw [List.getElem?_append_right (Nat.le_add_right _ _), Nat.add_sub_cancel_left, at_])
    have := number n among
    obtain ⟨other, rfl, -⟩ := Option.map_eq_some_iff.mp among
    simp only [List.length_append, Option.toList_some, List.length_singleton] at behind
    omega
  rw [eventsIn, split, List.filter_append, List.filter_append, keepsFirst, keepsLater,
    filter_allBut_own, List.append_nil]

section

variable (h : replay.Nested) (numbers : replay.Numbered) (quiet : reading.isQuiet = true)

include h quiet

theorem Nested.exists_split (readings : List Reading) :
    ∃ first later, first.length = replay.events.size ∧
      ((replay.read settings reading).readAll settings readings).events.toList =
        first ++ (replay.added? settings reading).toList ++ later := by
  let whole := (replay.read settings reading).readAll settings readings
  have longer := (@map_undated_readAll settings (replay.read settings reading) readings).length_le
  have grows : Grows _ whole.events := (h.read reading).grows_readAll readings
  have size : replay.events.size ≤ (replay.read settings reading).events.size := by
    rw [size_events_read]
    exact Nat.le_add_right _ _
  have length : (whole.events.toList.take replay.events.size).length = replay.events.size := by
    simp only [List.length_map, Array.length_toList] at longer
    simpa using Nat.le_trans size longer
  cases reading with
  | enter columns depth function => cases quiet
  | leave columns depth => cases quiet
  | skip =>
      refine ⟨_, whole.events.toList.drop replay.events.size, length, ?_⟩
      simp [added?, whole]
  | call columns depth function =>
      obtain ⟨event, at_, becomes⟩ := grows replay.events.size _ Array.getElem?_push_size
      -- Later lines give durations to entries only, and this is the event of a call.
      cases becomes with
      | timed entry => cases entry
      | same =>
          refine ⟨_, whole.events.toList.drop (replay.events.size + 1), length, ?_⟩
          rw [← Array.getElem?_toList] at at_
          obtain ⟨inside, here⟩ := List.getElem?_eq_some_iff.mp at_
          have behind := List.drop_eq_getElem_cons inside
          rw [here] at behind
          calc whole.events.toList
              = whole.events.toList.take replay.events.size ++
                  whole.events.toList.drop replay.events.size := (List.take_append_drop _ _).symm
            _ = _ := by
              rw [behind, List.append_assoc]
              rfl

include numbers

theorem Nested.alike_quiet :
    Alike (allBut ((replay.added? settings reading).map (·.seq)))
      (replay.read settings reading) replay := by
  let part := allBut ((replay.added? settings reading).map (·.seq))
  have kept : ∀ event ∈ replay.events.toList, part.has event = true := by
    refine fun event member => has_allBut fun n among => ?_
    obtain ⟨i, inside, seq⟩ := numbers.seq_of_mem member
    obtain ⟨other, adds, rfl⟩ := Option.map_eq_some_iff.mp among
    have := seq_added? adds
    omega
  have dropped : (replay.added? settings reading).toList.filter part.has = [] :=
    filter_allBut_own _
  have events := @events_read_of_quiet settings reading replay quiet
  have before {call : OpenCall} (member : call ∈ replay.openCalls) :
      ∃ event, replay.events.toList[call.event]? = some event ∧
        call.event ≤ replay.events.toList.length := by
    obtain ⟨event, at_, -⟩ := h.undated member
    rw [← Array.getElem?_toList] at at_
    exact ⟨event, at_, Nat.le_of_lt (List.getElem?_eq_some_iff.mp at_).1⟩
  refine ⟨?_, fun call member => ?_, ?_⟩
  · rw [openCalls_read_of_quiet replay quiet, List.map_congr_left, List.map_id]
    intro call member
    obtain ⟨event, at_, inside⟩ := before member
    have all : (replay.events.toList.take call.event).countP part.has = call.event := by
      rw [List.countP_eq_length.mpr fun event member => kept event (List.mem_of_mem_take member),
        List.length_take_of_le inside]
    rw [renumber, rank, events, List.take_append_of_le_length inside, all]
    rfl
  · rw [openCalls_read_of_quiet replay quiet] at member
    obtain ⟨event, at_, -⟩ := before member
    refine ⟨event, ?_, kept event (List.mem_of_getElem? at_)⟩
    rw [← Array.getElem?_toList, events,
      List.getElem?_append_left (List.getElem?_eq_some_iff.mp at_).1, at_]
  · rw [eventsIn, events, List.filter_append, List.filter_eq_self.mpr kept, dropped,
      List.append_nil]

omit h quiet numbers

theorem Alike.readAll_allBut {number : Option Int} (alike : Alike (allBut number) replay alone)
    (h : replay.Nested) (h' : alone.Nested) (below : ∀ n ∈ number, n ≤ replay.events.size)
    (readings : List Reading) :
    Alike (allBut number) (replay.readAll settings readings)
      (alone.readAll settings readings) := by
  induction readings generalizing replay alone with
  | nil => exact alike
  | cons reading rest ih =>
      have kept : ∀ event ∈ replay.added? settings reading,
          (allBut number).has event = true := by
        refine fun event adds => has_allBut fun n among => ?_
        have later := seq_added? adds
        have := below n among
        omega
      have below' : ∀ n ∈ number, n ≤ (replay.read settings reading).events.size := by
        intro n among
        have := below n among
        rw [size_events_read]
        omega
      exact ih (alike.read h h' kept) (h.read reading) (h'.read reading) below'

include h quiet numbers

theorem Nested.readAll_without (readings : List Reading) :
    ∃ first later, first.length = replay.events.size ∧
      ((replay.read settings reading).readAll settings readings).events.toList =
        first ++ (replay.added? settings reading).toList ++ later ∧
      (replay.readAll settings readings).events.toList = numbered 1 (first ++ later) := by
  obtain ⟨first, later, length, split⟩ := @Nested.exists_split settings _ _ h quiet readings
  have below : ∀ n ∈ (replay.added? settings reading).map (·.seq),
      n ≤ ((replay.read settings reading).events.size : Int) := by
    intro n among
    obtain ⟨event, adds, rfl⟩ := Option.map_eq_some_iff.mp among
    rw [seq_added? adds, size_events_read, ← isSome_added? replay reading, adds]
    simp
  have alike : Alike (allBut ((replay.added? settings reading).map (·.seq)))
      ((replay.read settings reading).readAll settings readings) (replay.readAll settings readings) :=
    (h.alike_quiet numbers quiet).readAll_allBut (h.read reading) h below readings
  have events := alike.events
  have numbers' := @Numbered.readAll settings _ (@Numbered.read settings _ numbers reading) readings
  rw [numbers'.eventsIn_allBut split] at events
  exact ⟨first, later, length, split, (numbers.readAll readings).eq_numbered events.symm⟩

end

/-- Leaving out a quiet line takes away its event, if it has one, and numbers those behind it anew.
Nothing else changes, in stacks, in durations or in any other field. -/
theorem run_without_quiet {xs ys : List (List Char)} {line : List Char} {whole : Replay}
    (read : Reading.ofLine settings line = .ok reading) (quiet : reading.isQuiet = true)
    (h : run settings (xs ++ line :: ys) = .ok whole) :
    ∃ before after without, run settings xs = .ok before ∧
      run settings (xs ++ [line]) = .ok after ∧ run settings (xs ++ ys) = .ok without ∧
      ∃ (first : List Event) (own : Option Event) (later : List Event),
        own.isSome = reading.givesEvent ∧
        after.events.toList = before.events.toList ++ own.toList ∧
        first.length = before.events.size ∧
        whole.events.toList = first ++ own.toList ++ later ∧
        without.events.toList = numbered 1 (first ++ later) := by
  obtain ⟨readings, all, rfl⟩ := readings_of_run settings h
  obtain ⟨early, read_xs, behind, read_behind, rfl⟩ := mapM_append_eq_ok.mp all
  obtain ⟨_, read', late, read_ys, rfl⟩ := mapM_cons_eq_ok.mp read_behind
  obtain rfl : reading = _ := Except.ok.inj (read.symm.trans read')
  let before := readAll settings {} early
  have nested : before.Nested := nested_empty.readAll early
  have numbers : before.Numbered := numbered_empty.readAll early
  obtain ⟨first, later, length, split, rest⟩ :=
    @Nested.readAll_without settings _ _ nested numbers quiet late
  have read_line : [line].mapM (Reading.ofLine settings) = .ok [reading] :=
    mapM_cons_eq_ok.mpr ⟨reading, read, [], rfl, rfl⟩
  have read_after : (xs ++ [line]).mapM (Reading.ofLine settings) = .ok (early ++ [reading]) :=
    mapM_append_eq_ok.mpr ⟨early, read_xs, _, read_line, rfl⟩
  have read_without : (xs ++ ys).mapM (Reading.ofLine settings) = .ok (early ++ late) :=
    mapM_append_eq_ok.mpr ⟨early, read_xs, late, read_ys, rfl⟩
  refine ⟨before, _, _, run_of_readings settings read_xs, run_of_readings settings read_after,
    run_of_readings settings read_without, first, before.added? settings reading, later,
    isSome_added? before reading, ?_, length, ?_, ?_⟩
  · rw [readAll_append]
    exact events_read_of_quiet before quiet
  · rw [readAll_append]
    exact split
  · rw [readAll_append]
    exact rest

theorem run_without_quiet_shallow :
    let xs := ["0)   |  f() \x7b".toList]
    let line := "1) 0.5 us |g();".toList
    let ys := ["0)   |    h();".toList, "0) 3.0 us |  \x7d".toList]
    ∃ whole without, run {} (xs ++ line :: ys) = .ok whole ∧ run {} (xs ++ ys) = .ok without ∧
      ∃ (first : List Event) (own : Option Event) (later : List Event),
        whole.events.toList.map (fun event => event.stack.map (·.function)) =
          [["f"], ["g"], ["f", "h"]] ∧
        first.length = 1 ∧ own.isSome = true ∧
        whole.events.toList = first ++ own.toList ++ later ∧
        without.events.toList = numbered 1 (first ++ later) := by
  intro xs line ys
  have finishes : ((run {} (xs ++ line :: ys)).map fun whole =>
      whole.events.toList.map fun event => event.stack.map (·.function)) =
        .ok [["f"], ["g"], ["f", "h"]] := by rfl
  have starts : ((run {} xs).map fun before => before.events.size) = .ok 1 := by rfl
  obtain ⟨whole, h, frames⟩ := of_map_ok finishes
  obtain ⟨reading, read, quiet⟩ := of_map_ok
    (show ((Reading.ofLine {} line).map fun reading =>
      (reading.isQuiet, reading.givesEvent)) = .ok (true, true) by rfl)
  obtain ⟨before, after, without, h_xs, -, h_without, first, own, later, gives, -, length, split,
    rest⟩ := run_without_quiet read (Prod.ext_iff.mp quiet).1 h
  rw [h_xs] at starts
  exact ⟨whole, without, h, h_without, first, own, later, frames,
    length.trans (Except.ok.inj starts), gives.trans (Prod.ext_iff.mp quiet).2, split, rest⟩

end Replay

end CallTimeline.Trace
