import CallTimeline.Proofs.Trace.Snapshot
import Mathlib.Data.List.Induction

namespace CallTimeline.Trace

def Snapshot.EndsOwn (snapshot : Snapshot) : Prop :=
  ∃ own, snapshot.stack.getLast? = some own ∧ own.function = snapshot.function

theorem endsOwn_of_snapshotAt {settings : Settings} {readings : List Reading} {k : Nat}
    {snapshot : Snapshot} (at_ : snapshotAt settings readings k = some snapshot) :
    snapshot.EndsOwn := by
  obtain ⟨⟨kind, frame⟩, -, rfl⟩ := Option.map_eq_some_iff.mp at_
  exact ⟨frame, List.getLast?_concat, rfl⟩

theorem Linked.of_prefix {snapshots initial : List Snapshot} (h : Linked snapshots)
    (start : initial <+: snapshots) : Linked initial :=
  fun before snapshot within => h before snapshot (within.trans start)

theorem Linked.exists_of_frame {snapshots : List Snapshot} (h : Linked snapshots)
    (own : ∀ snapshot ∈ snapshots, snapshot.EndsOwn) {snapshot : Snapshot}
    (member : snapshot ∈ snapshots) {frame : Frame String} (among : frame ∈ snapshot.stack) :
    ∃ other ∈ snapshots, other.function = frame.function := by
  -- The induction is on how many events there were: a parent comes before its children.
  induction snapshots using List.reverseRecOn generalizing snapshot frame with
  | nil => cases member
  | append_singleton snapshots last ih =>
      have earlier {snapshot : Snapshot} (member : snapshot ∈ snapshots) {frame : Frame String}
          (among : frame ∈ snapshot.stack) :
          ∃ other ∈ snapshots ++ [last], other.function = frame.function := by
        obtain ⟨other, found, same⟩ := ih (h.of_prefix (List.prefix_append _ _))
          (fun snapshot member => own snapshot (List.mem_append_left _ member)) member among
        exact ⟨other, List.mem_append_left _ found, same⟩
      obtain member | rfl := List.mem_append.mp member |>.imp_right List.mem_singleton.mp
      · exact earlier member among
      · obtain ⟨frame', last_eq, same⟩ := own snapshot (List.mem_append_right _ (by simp))
        rw [← List.dropLast_append_getLast? frame' last_eq] at among
        obtain outer | inner := List.mem_append.mp among
        · obtain empty | ⟨parent, member, -, stack⟩ := (h snapshots snapshot List.prefix_rfl).parent
          · rw [empty] at outer
            cases outer
          · exact earlier member (stack ▸ outer)
        · obtain rfl := List.mem_singleton.mp inner
          exact ⟨snapshot, List.mem_append_right _ (by simp), same.symm⟩

namespace Replay

variable {settings : Settings} {lines : List (List Char)} {replay : Replay}

theorem linked_of_run (h : run settings lines = .ok replay) : Linked replay.snapshots := by
  obtain ⟨readings, -, rfl⟩ := readings_of_run settings h
  exact nested_empty.linked_readAll (fun _ _ initial => by simp [snapshots] at initial) readings

theorem endsOwn_of_run (h : run settings lines = .ok replay) {snapshot : Snapshot}
    (member : snapshot ∈ replay.snapshots) : snapshot.EndsOwn := by
  obtain ⟨readings, -, rfl⟩ := readings_of_run settings h
  have whole : (readAll settings {} (readings.take readings.length)).snapshots = _ :=
    snapshots_readAll (Nat.le_refl readings.length)
  rw [List.take_length] at whole
  rw [whole] at member
  obtain ⟨k, -, at_⟩ := List.mem_filterMap.mp member
  exact endsOwn_of_snapshotAt at_

theorem stack_of_run (h : run settings lines = .ok replay) {before : List Event} {event : Event}
    (initial : before ++ [event] <+: replay.events.toList) :
    (∃ own, event.stack.getLast? = some own ∧ own.function = event.function) ∧
      (event.stack.dropLast = [] ∨
        ∃ parent ∈ before, parent.kind = .entry ∧ parent.stack = event.stack.dropLast) := by
  have initial' : before.map Event.snapshot ++ [event.snapshot] <+: replay.snapshots := by
    simpa [snapshots] using initial.map Event.snapshot
  have member : event.snapshot ∈ replay.snapshots :=
    initial'.subset (List.mem_append_right _ (by simp))
  refine ⟨endsOwn_of_run h member, (linked_of_run h _ _ initial').parent.imp_right ?_⟩
  rintro ⟨_, among, facts⟩
  obtain ⟨parent, earlier, rfl⟩ := List.mem_map.mp among
  exact ⟨parent, earlier, facts⟩

theorem function_of_frame (h : run settings lines = .ok replay) {event : Event}
    (member : event ∈ replay.events.toList) {frame : Frame String} (among : frame ∈ event.stack) :
    ∃ other ∈ replay.events.toList, other.function = frame.function := by
  obtain ⟨_, found, same⟩ := (linked_of_run h).exists_of_frame (fun _ => endsOwn_of_run h)
    (List.mem_map_of_mem member) among
  obtain ⟨other, occurs, rfl⟩ := List.mem_map.mp found
  exact ⟨other, occurs, same⟩

end Replay

end CallTimeline.Trace
