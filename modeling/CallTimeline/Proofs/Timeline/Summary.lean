import CallTimeline.Proofs.Timeline.Entries
import Mathlib.Data.List.Induction
import Mathlib.Data.List.TakeWhile

/-!
# What a timeline shows of its events

A timeline has one entry for each event, in the order of their numbers. On display is the latest
direction that some function had (`getElem?_entriesFrom`), so what is shown without a direction
stands at the beginning. The summary, which is kept entry by entry, is a recount of the entries
(`foldl_count`).
-/

namespace CallTimeline

namespace Direction

/-- The last direction of a sequence that is one, or `current` if there is none. -/
def latest (current : Direction) (directions : List Direction) : Direction :=
  (directions.reverse.find? (· ≠ other)).getD current

variable {current direction : Direction} {directions : List Direction}

theorem latest_cons :
    latest current (direction :: directions) = latest (follow current direction) directions := by
  rw [latest, latest, List.reverse_cons, List.find?_append]
  cases directions.reverse.find? (· ≠ other) with
  | some last => rfl
  | none => cases direction <;> rfl

theorem latest_eq_other_iff :
    latest other directions = other ↔ ∀ direction ∈ directions, direction = other := by
  rw [latest]
  cases found : directions.reverse.find? (· ≠ other) with
  | none =>
      rw [List.find?_eq_none] at found
      simpa using found
  | some last =>
      have known : last ≠ other := by simpa using List.find?_some found
      have member : last ∈ directions := List.mem_reverse.mp (List.mem_of_find?_eq_some found)
      exact iff_of_false known fun silent => known (silent last member)

end Direction

namespace Summary

def recount (linesRead linesSkipped : Int) (entries : List Entry) : Summary where
  entries := entries.length
  transmit := entries.countP (·.flow = .transmit)
  receive := entries.countP (·.flow = .receive)
  other := entries.countP (·.flow = .other)
  maxDepth := (entries.map (·.stack.length)).foldl max 0
  linesRead
  linesSkipped
  duration := ((entries.filter (·.stack.length = 1)).map (·.duration)).foldl (· + ·) 0.0

variable {linesRead linesSkipped : Int} {entries : List Entry}

theorem recount_concat (entry : Entry) :
    recount linesRead linesSkipped (entries ++ [entry]) =
      (recount linesRead linesSkipped entries).count entry := by
  by_cases outermost : entry.stack.length = 1
  · simp [recount, count, List.countP_append, List.countP_singleton, outermost]
  · simp [recount, count, List.countP_append, List.countP_singleton, outermost]

theorem foldl_count :
    entries.foldl count { linesRead, linesSkipped } = recount linesRead linesSkipped entries := by
  induction entries using List.reverseRecOn with
  | nil => rfl
  | append_singleton entries entry ih =>
      rw [List.foldl_append, ih, List.foldl_cons, List.foldl_nil, recount_concat]

theorem sum_recount :
    (recount linesRead linesSkipped entries).transmit +
        (recount linesRead linesSkipped entries).receive +
      (recount linesRead linesSkipped entries).other = entries.length := by
  induction entries using List.reverseRecOn with
  | nil => rfl
  | append_singleton entries entry ih =>
      rw [recount_concat, List.length_append, List.length_singleton, ← ih]
      cases shown : entry.flow <;> simp [count, shown] <;> omega

end Summary

namespace Timeline

open Trace

structure Shows (settings : Settings) (number : Nat) (event : Event) (entry : Entry) : Prop where
  step : entry.step = number
  timestamp : entry.timestamp = number * settings.timestampScale
  function : entry.function = .str event.function
  kind : entry.kind = event.kind
  stack : entry.stack = event.stack.map (Frame.map .str)
  duration : entry.duration = durationOf event
  cpu : entry.cpu = event.cpu
  task : entry.task = .str event.task
  classified : entry.classified =
    Direction.classify event.function (event.stack.dropLast.map (·.function))
  buffer : entry.buffer = Buffer.atStep event.function entry.flow number

variable (settings : Settings)

theorem shows_entryAt (step : Nat) (event : Event) (flow : Direction) :
    Shows settings step event (entryAt settings step event flow) :=
  ⟨rfl, rfl, rfl, rfl, rfl, rfl, rfl, rfl, rfl, rfl⟩

theorem entriesFrom_eq_append (done : List Entry) (step : Nat) (current : Direction)
    (events : List Event) :
    entriesFrom settings done step current events =
      done.reverse ++ entriesFrom settings [] step current events := by
  induction events generalizing done step current with
  | nil => simp [entriesFrom]
  | cons event rest ih =>
      rw [entriesFrom, entriesFrom, ih, ih [_]]
      simp

theorem getElem?_entriesFrom {step : Nat} {current : Direction} {events : List Event} {i : Nat}
    {event : Event} (at_ : events[i]? = some event) :
    (entriesFrom settings [] step current events)[i]? =
      some (entryAt settings (step + i) event
        (Direction.latest current ((events.take (i + 1)).map classify))) := by
  induction events generalizing step current i with
  | nil => cases at_
  | cons first rest ih =>
      rw [entriesFrom, entriesFrom_eq_append, List.reverse_singleton, List.singleton_append,
        List.take_succ_cons, List.map_cons, Direction.latest_cons]
      cases i with
      | zero =>
          cases at_
          rfl
      | succ i =>
          rw [List.getElem?_cons_succ, ih at_, Nat.add_right_comm]
          rfl

theorem map_classified_entriesFrom (step : Nat) (current : Direction) (events : List Event) :
    (entriesFrom settings [] step current events).map (·.classified) = events.map classify :=
  map_entriesFrom settings (fun _ _ _ => rfl) [] step current events

theorem seq_trans (a b c : Event) (le : decide (a.seq ≤ b.seq) = true)
    (le' : decide (b.seq ≤ c.seq) = true) : decide (a.seq ≤ c.seq) = true :=
  decide_eq_true (Int.le_trans (of_decide_eq_true le) (of_decide_eq_true le'))

theorem seq_total (a b : Event) : (decide (a.seq ≤ b.seq) || decide (b.seq ≤ a.seq)) = true := by
  simpa using Int.le_total a.seq b.seq

section

variable (events : List Event)

/-- The events by their numbers; those of one number stay in their order. -/
def bySeq : List Event :=
  events.mergeSort fun a b => a.seq ≤ b.seq

theorem bySeq_perm : (bySeq events).Perm events :=
  List.mergeSort_perm _ _

theorem bySeq_pairwise : (bySeq events).Pairwise fun a b => a.seq ≤ b.seq := by
  have sorted := List.pairwise_mergeSort seq_trans seq_total events
  simpa [bySeq] using sorted

theorem filter_bySeq (number : Int) :
    (bySeq events).filter (·.seq = number) = events.filter (·.seq = number) := by
  have alike : (events.filter (·.seq = number)).Pairwise fun a b => decide (a.seq ≤ b.seq) := by
    refine List.pairwise_of_forall_mem_list fun a memberA b memberB => ?_
    simp only [List.mem_filter, decide_eq_true_eq] at memberA memberB
    simp [memberA.2, memberB.2]
  have kept : (events.filter (·.seq = number)).Sublist (bySeq events) :=
    List.sublist_mergeSort seq_trans seq_total alike List.filter_sublist
  have among := kept.filter (·.seq = number)
  rw [List.filter_filter] at among
  simp only [Bool.and_self] at among
  exact (among.eq_of_length ((bySeq_perm events).filter _).length_eq.symm).symm

end

section

variable (events : List Event) (linesRead linesSkipped : Int)

theorem getElem?_ofEvents {i : Nat} {event : Event} (at_ : (bySeq events)[i]? = some event) :
    (ofEvents settings events linesRead linesSkipped).entries[i]? =
      some (entryAt settings (i + 1) event (Direction.latest .other
        (((ofEvents settings events linesRead linesSkipped).entries.take (i + 1)).map
          (·.classified)))) := by
  rw [List.map_take]
  change (entriesFrom settings [] 1 .other (bySeq events))[i]? = some (entryAt settings (i + 1) event
    (Direction.latest .other
      (((entriesFrom settings [] 1 .other (bySeq events)).map (·.classified)).take (i + 1))))
  rw [getElem?_entriesFrom settings at_, map_classified_entriesFrom, ← List.map_take, Nat.add_comm 1]

theorem length_ofEvents :
    (ofEvents settings events linesRead linesSkipped).entries.length = events.length := by
  have same := congrArg List.length
    (map_classified_entriesFrom settings 1 .other (bySeq events))
  rwa [List.length_map, List.length_map, (bySeq_perm events).length_eq] at same

end

theorem exists_split {entries : List Entry}
    (latest : ∀ (i : Nat) (entry : Entry), entries[i]? = some entry →
      (entry.flow = .other ↔ ∀ earlier ∈ entries.take (i + 1), earlier.classified = .other)) :
    ∃ silent rest, entries = silent ++ rest ∧ (∀ entry ∈ silent, entry.flow = .other) ∧
      ∀ entry ∈ rest, entry.flow ≠ .other := by
  -- The entries are cut before the first that is shown with a direction.
  let isSilent (entry : Entry) : Bool := entry.flow = .other
  have split := List.takeWhile_append_dropWhile (p := isSilent) (l := entries)
  refine ⟨_, _, split.symm, fun entry member => ?_, fun entry member silent => ?_⟩
  · simpa [isSilent] using List.mem_takeWhile_imp member
  · obtain ⟨first, more, rest⟩ := List.exists_cons_of_ne_nil (List.ne_nil_of_mem member)
    have flows : first.flow ≠ .other := by
      simpa [rest, isSilent] using List.head?_dropWhile_not isSilent entries
    rw [rest] at split member
    generalize entries.takeWhile isSilent = start at split
    obtain ⟨j, at_⟩ := List.mem_iff_getElem?.mp member
    have at_first : entries[start.length]? = some first := by
      rw [← split]
      simp
    have at_entry : entries[start.length + j]? = some entry := by
      rw [← split, List.getElem?_append_right (Nat.le_add_right _ _), Nat.add_sub_cancel_left, at_]
    have early := (latest _ entry at_entry).mp silent
    refine flows ((latest _ first at_first).mpr fun earlier among => early earlier ?_)
    exact (List.take_prefix_take_left (by omega)).subset among

/-- The timeline of any events. It has an entry for each event in the order of their numbers, and
events of one number stay in their order. Each entry shows its event: the function is classified
among the calls around it, and the direction on display, which the buffer goes by, is the last one
up to the entry that is a direction. So the entries without one on display are the first. The
summary is a recount of the entries, of which each is counted under one direction, and there are no
data just if there is no event. -/
theorem ofEvents_recounted (events : List Event) (linesRead linesSkipped : Int) :
    let timeline := ofEvents settings events linesRead linesSkipped
    (∃ ordered : List Event,
      (ordered.Perm events ∧ (ordered.Pairwise fun a b => a.seq ≤ b.seq) ∧
        ∀ number, ordered.filter (·.seq = number) = events.filter (·.seq = number)) ∧
      timeline.entries.length = ordered.length ∧
      ∀ (i : Nat) (event : Event), ordered[i]? = some event →
        ∃ entry, timeline.entries[i]? = some entry ∧ Shows settings (i + 1) event entry ∧
          entry.flow =
            Direction.latest .other ((timeline.entries.take (i + 1)).map (·.classified)) ∧
          (entry.flow = .other ↔
            ∀ earlier ∈ timeline.entries.take (i + 1), earlier.classified = .other)) ∧
    (∃ silent rest, timeline.entries = silent ++ rest ∧
      (∀ entry ∈ silent, entry.flow = .other) ∧ ∀ entry ∈ rest, entry.flow ≠ .other) ∧
    timeline.summary = Summary.recount linesRead linesSkipped timeline.entries ∧
    timeline.summary.transmit + timeline.summary.receive + timeline.summary.other =
      timeline.summary.entries ∧
    (timeline.hasData = false ↔ events = []) ∧
    ∀ now metadata, (timeline.toJson now metadata).field "status" =
      .ok (.str (if events = [] then "no_data" else "produced")) := by
  intro timeline
  have shown (i : Nat) (event : Event) (at_ : (bySeq events)[i]? = some event) :
      ∃ entry, timeline.entries[i]? = some entry ∧ Shows settings (i + 1) event entry ∧
        entry.flow =
          Direction.latest .other ((timeline.entries.take (i + 1)).map (·.classified)) ∧
        (entry.flow = .other ↔
          ∀ earlier ∈ timeline.entries.take (i + 1), earlier.classified = .other) := by
    refine ⟨_, getElem?_ofEvents settings events linesRead linesSkipped at_,
      shows_entryAt settings (i + 1) event _, rfl, ?_⟩
    exact Direction.latest_eq_other_iff.trans List.forall_mem_map
  have length : timeline.entries.length = (bySeq events).length :=
    (length_ofEvents settings events linesRead linesSkipped).trans (bySeq_perm events).length_eq.symm
  have counted : timeline.summary = Summary.recount linesRead linesSkipped timeline.entries :=
    Summary.foldl_count
  have noData : timeline.hasData = false ↔ events = [] := by
    rw [hasData, Bool.not_eq_false', List.isEmpty_iff, ← List.length_eq_zero_iff, length_ofEvents,
      List.length_eq_zero_iff]
  refine ⟨⟨bySeq events, ⟨bySeq_perm events, bySeq_pairwise events, filter_bySeq events⟩, length,
    shown⟩, exists_split ?_, counted, ?_, noData, fun now metadata => ?_⟩
  · intro i entry at_
    obtain ⟨bound, -⟩ := List.getElem?_eq_some_iff.mp at_
    obtain ⟨entry', at', -, -, silent⟩ := shown i _ (List.getElem?_eq_getElem (length ▸ bound))
    rw [at_] at at'
    cases at'
    exact silent
  · rw [counted]
    exact Summary.sum_recount
  · change Except.ok (Json.str (if timeline.hasData then "produced" else "no_data")) = _
    by_cases none_ : events = []
    · rw [if_pos none_, noData.mpr none_]
      rfl
    · rw [if_neg none_, (Bool.not_eq_false _).mp (mt noData.mp none_)]
      rfl

end Timeline

end CallTimeline
