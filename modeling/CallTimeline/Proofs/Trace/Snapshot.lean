import CallTimeline.Proofs.Trace.OpenCalls

/-!
# Stack snapshots

The stack of an event is a function of the lines up to its own: the entries that no line since then
has ended, above the depth of the event (`snapshotAt`). A replay keeps it incrementally;
`openFrames_readAll` and `snapshots_readAll` show that both agree after every number of lines. The
stacks also hang together: without its own frame, a stack is the stack of an earlier entry.
-/

namespace CallTimeline.Trace

namespace Reading

/-- The depth from which on a line ends the calls before it. -/
def level? : Reading → Option Nat
  | .enter _ depth _ => some depth
  | .leave _ depth => some depth
  | _ => none

variable (settings : Settings)

def opened? : Reading → Option (Frame String)
  | .enter _ depth function => some (Replay.frameOf settings function depth)
  | _ => none

def made? : Reading → Option (Kind × Frame String)
  | .enter _ depth function => some (.entry, Replay.frameOf settings function depth)
  | .call _ depth function => some (.call, Replay.frameOf settings function depth)
  | _ => none

end Reading

structure Snapshot where
  kind : Kind
  function : String
  depth : Int
  stack : List (Frame String)
deriving DecidableEq

def Event.snapshot (event : Event) : Snapshot where
  kind := event.kind
  function := event.function
  depth := event.depth
  stack := event.stack

variable (settings : Settings)

def Reading.keeps (reading : Reading) (frame : Frame String) : Bool :=
  reading.level?.all fun depth => frame.depth < depth

/-- The frames that are open before line `k`: those of the earlier entries that every line between
keeps. -/
def openBefore (readings : List Reading) (k : Nat) : List (Frame String) :=
  (List.range k).filterMap fun j =>
    (readings[j]?.bind (Reading.opened? settings)).filter fun frame =>
      ((readings.take k).drop (j + 1)).all (·.keeps frame)

/-- What the event of line `k` shows, if the line gives one. -/
def snapshotAt (readings : List Reading) (k : Nat) : Option Snapshot :=
  (readings[k]?.bind (Reading.made? settings)).map fun (kind, frame) =>
    { kind
      function := frame.function
      depth := frame.depth
      stack := (openBefore settings readings k).filter (·.depth < frame.depth) ++ [frame] }

namespace Replay

variable {settings}

def openFrames (replay : Replay) : List (Frame String) :=
  replay.openCalls.map (·.frame)

def snapshots (replay : Replay) : List Snapshot :=
  replay.events.toList.map Event.snapshot

theorem map_frame_stackAbove (replay : Replay) (depth : Nat) :
    (replay.stackAbove depth).map (·.frame) =
      replay.openFrames.filter fun frame => frame.depth < (depth : Int) := by
  rw [stackAbove, openFrames, List.filter_map]
  rfl

theorem openFrames_read (replay : Replay) (reading : Reading) :
    (replay.read settings reading).openFrames =
      replay.openFrames.filter reading.keeps ++ (reading.opened? settings).toList := by
  cases reading with
  | enter columns depth function =>
      change List.map _ (replay.stackAbove depth ++ [_]) = _
      rw [List.map_append, map_frame_stackAbove]
      rfl
  | leave columns depth =>
      change List.map _ (replay.stackAbove depth) = _
      rw [map_frame_stackAbove]
      exact (List.append_nil _).symm
  | call columns depth function =>
      exact ((List.append_nil _).trans (List.filter_eq_self.mpr fun _ _ => rfl)).symm
  | skip => exact ((List.append_nil _).trans (List.filter_eq_self.mpr fun _ _ => rfl)).symm

theorem snapshots_leave (replay : Replay) (columns : Columns) (depth : Nat) :
    (replay.leave columns depth).snapshots = replay.snapshots := by
  have h := congrArg (List.map Event.snapshot) (@map_undated_leave replay columns depth)
  rw [List.map_map, List.map_map] at h
  exact h

theorem snapshots_read (replay : Replay) (reading : Reading) :
    (replay.read settings reading).snapshots = replay.snapshots ++
      ((reading.made? settings).map fun (kind, frame) =>
        { kind
          function := frame.function
          depth := frame.depth
          stack := replay.openFrames.filter (·.depth < frame.depth) ++ [frame] : Snapshot }).toList := by
  cases reading with
  | enter columns depth function =>
      simp only [read, enter, snapshots, Array.toList_push, List.map_append, List.map_cons,
        List.map_nil]
      congr 2
      simp only [Event.snapshot, nextEvent, map_frame_stackAbove]
      rfl
  | leave columns depth =>
      exact (snapshots_leave _ columns depth).trans (List.append_nil _).symm
  | call columns depth function =>
      simp only [read, call, snapshots, Array.toList_push, List.map_append, List.map_cons,
        List.map_nil]
      congr 2
      simp only [Event.snapshot, nextEvent, map_frame_stackAbove]
      rfl
  | skip => exact (List.append_nil _).symm

end Replay

section

variable {settings} {readings : List Reading} {k : Nat} {reading : Reading}

theorem take_succ_of_getElem? (h : readings[k]? = some reading) :
    readings.take (k + 1) = readings.take k ++ [reading] := by
  rw [List.take_add_one, h]
  rfl

theorem openBefore_succ (h : readings[k]? = some reading) :
    openBefore settings readings (k + 1) =
      (openBefore settings readings k).filter reading.keeps ++ (reading.opened? settings).toList := by
  obtain ⟨bound, -⟩ := List.getElem?_eq_some_iff.mp h
  have length : (readings.take k).length = k := by simp; omega
  rw [openBefore, openBefore, List.range_succ, List.filterMap_append, List.filter_filterMap]
  -- The frames of earlier lines are asked about the new line; its own has no line behind it yet.
  congr 1
  · refine List.filterMap_congr fun j member => ?_
    have before : j + 1 ≤ (readings.take k).length := by
      rw [length]
      exact List.mem_range.mp member
    rw [take_succ_of_getElem? h, List.drop_append_of_le_length before]
    cases readings[j]?.bind (Reading.opened? settings) with
    | none => rfl
    | some frame => simp [Option.filter_some, List.all_append, apply_ite (Option.filter _), ite_and]
  · rw [List.filterMap_cons, List.filterMap_nil, take_succ_of_getElem? h,
      List.drop_of_length_le (by simp [length]), h, Option.bind_some]
    cases reading.opened? settings <;> rfl

theorem openFrames_readAll (bound : k ≤ readings.length) :
    (Replay.readAll settings {} (readings.take k)).openFrames =
      openBefore settings readings k := by
  induction k with
  | zero => rfl
  | succ k ih =>
      have h : readings[k]? = some readings[k] := List.getElem?_eq_getElem bound
      rw [take_succ_of_getElem? h, Replay.readAll_append, Replay.readAll_cons, Replay.readAll_nil,
        Replay.openFrames_read, ih (Nat.le_of_succ_le bound), openBefore_succ h]

theorem snapshots_readAll (bound : k ≤ readings.length) :
    (Replay.readAll settings {} (readings.take k)).snapshots =
      (List.range k).filterMap (snapshotAt settings readings) := by
  induction k with
  | zero => rfl
  | succ k ih =>
      have h : readings[k]? = some readings[k] := List.getElem?_eq_getElem bound
      have before := Nat.le_of_succ_le bound
      rw [take_succ_of_getElem? h, Replay.readAll_append, Replay.readAll_cons, Replay.readAll_nil,
        Replay.snapshots_read, ih before, openFrames_readAll before, List.range_succ,
        List.filterMap_append]
      congr 1
      rw [List.filterMap_cons, List.filterMap_nil, snapshotAt, h, Option.bind_some]
      cases readings[k].made? settings <;> rfl

end

structure Snapshot.Follows (snapshot : Snapshot) (before : List Snapshot) : Prop where
  nonempty : snapshot.stack ≠ []
  deeper : snapshot.stack.Pairwise fun outer inner => outer.depth < inner.depth
  parent : snapshot.stack.dropLast = [] ∨
    ∃ parent ∈ before, parent.kind = .entry ∧ parent.stack = snapshot.stack.dropLast

def Linked (snapshots : List Snapshot) : Prop :=
  ∀ before snapshot, before ++ [snapshot] <+: snapshots → snapshot.Follows before

theorem Linked.concat {snapshots : List Snapshot} {last : Snapshot} (h : Linked snapshots)
    (follows : last.Follows snapshots) : Linked (snapshots ++ [last]) := by
  intro before snapshot initial
  rcases List.prefix_concat_iff.mp initial with whole | initial
  · obtain ⟨rfl, same⟩ := List.append_inj' whole rfl
    obtain rfl := List.singleton_inj.mp same
    exact follows
  · exact h before snapshot initial

namespace Replay

variable {settings : Settings} {replay : Replay}

/-- A new event stands inside the calls above its depth, and the innermost of them is an earlier
entry with just these calls as its stack. -/
theorem Nested.follows (h : replay.Nested) (kind : Kind) (frame : Frame String) (depth : Nat)
    (at_ : frame.depth = depth) :
    Snapshot.Follows
      { kind
        function := frame.function
        depth := frame.depth
        stack := replay.openFrames.filter (·.depth < frame.depth) ++ [frame] } replay.snapshots := by
  have frames : replay.openFrames.filter (·.depth < frame.depth) =
      (replay.stackAbove depth).map (·.frame) := by
    rw [map_frame_stackAbove, at_]
  simp only [frames]
  constructor
  · simp
  · refine List.pairwise_append.mpr ⟨List.pairwise_map.mpr
      (h.deeper.sublist (h.stackAbove_prefix depth).sublist), List.pairwise_singleton _ _, ?_⟩
    intro outer outerMem inner innerMem
    obtain ⟨call, member, rfl⟩ := List.mem_map.mp outerMem
    rw [List.mem_singleton.mp innerMem, at_]
    exact (mem_stackAbove.mp member).2
  · simp only [List.dropLast_concat]
    rcases List.eq_nil_or_concat (replay.stackAbove depth) with empty | ⟨outer, call, split⟩
    · exact Or.inl (by rw [empty, List.map_nil])
    · rw [List.concat_eq_append] at split
      obtain ⟨event, found, entry, -, stack⟩ :=
        h.entry outer call (split ▸ h.stackAbove_prefix depth)
      refine Or.inr ⟨event.snapshot, List.mem_map_of_mem ?_, entry, ?_⟩
      · exact Array.mem_toList_iff.mpr (Array.mem_of_getElem? found)
      · rw [split]
        exact stack

theorem Nested.linked_read (h : replay.Nested) (linked : Linked replay.snapshots)
    (reading : Reading) : Linked (replay.read settings reading).snapshots := by
  rw [snapshots_read]
  cases reading with
  | enter columns depth function => exact linked.concat (h.follows _ _ depth rfl)
  | leave columns depth => simpa [Reading.made?] using linked
  | call columns depth function => exact linked.concat (h.follows _ _ depth rfl)
  | skip => simpa [Reading.made?] using linked

theorem Nested.linked_readAll (h : replay.Nested) (linked : Linked replay.snapshots)
    (readings : List Reading) : Linked (replay.readAll settings readings).snapshots := by
  induction readings generalizing replay with
  | nil => exact linked
  | cons reading rest ih => exact ih (h.read reading) (h.linked_read linked reading)

/-- The events of a run are those that the lines determine by their history, in the order of the
lines. No stack is empty, each goes strictly deeper, and without its own frame it is empty or the
stack of an earlier entry. -/
theorem snapshots_eq_history {lines : List (List Char)} (h : run settings lines = .ok replay) :
    ∃ readings, lines.mapM (Reading.ofLine settings) = .ok readings ∧
      replay.events.toList.map Event.snapshot =
        (List.range lines.length).filterMap (snapshotAt settings readings) ∧
      ∀ before event, before ++ [event] <+: replay.events.toList →
        event.stack ≠ [] ∧
        event.stack.Pairwise (fun outer inner => outer.depth < inner.depth) ∧
        (event.stack.dropLast = [] ∨
          ∃ parent ∈ before, parent.kind = .entry ∧ parent.stack = event.stack.dropLast) := by
  obtain ⟨readings, read, rfl⟩ := readings_of_run settings h
  refine ⟨readings, read, ?_, ?_⟩
  · have whole : (readAll settings {} (readings.take readings.length)).snapshots = _ :=
      snapshots_readAll (Nat.le_refl readings.length)
    rw [List.take_length, length_of_mapM_ok read] at whole
    exact whole
  · intro before event initial
    have linked : Linked (readAll settings {} readings).snapshots :=
      nested_empty.linked_readAll (fun _ _ initial => by simp [snapshots] at initial) readings
    have follows := linked (before.map Event.snapshot) event.snapshot (by
      simpa [snapshots] using initial.map Event.snapshot)
    refine ⟨follows.nonempty, follows.deeper, follows.parent.imp_right ?_⟩
    rintro ⟨parent, member, facts⟩
    obtain ⟨event', member', rfl⟩ := List.mem_map.mp member
    exact ⟨event', member', facts⟩

theorem snapshots_eq_history_missing_exit :
    let lines := ["0)   |a() \x7b".toList, "0)   |  b() \x7b".toList, "1)   |    c();".toList,
      "0)   |  d() \x7b".toList, "0)   |\x7d".toList]
    ∃ replay, run {} lines = .ok replay ∧ ∃ readings,
      lines.mapM (Reading.ofLine {}) = .ok readings ∧
      replay.events.toList.map Event.snapshot = (List.range 5).filterMap (snapshotAt {} readings) ∧
      ((List.range 5).filterMap (snapshotAt {} readings)).map (·.stack.map (·.function)) =
        [["a"], ["a", "b"], ["a", "b", "c"], ["a", "d"]] := by
  intro lines
  have reads : ((lines.mapM (Reading.ofLine {})).map fun readings =>
      ((List.range 5).filterMap (snapshotAt {} readings)).map (·.stack.map (·.function))) =
        .ok [["a"], ["a", "b"], ["a", "b", "c"], ["a", "d"]] := by rfl
  cases h : run {} lines with
  | error fault =>
      have finishes : (run {} lines).isOk = true := by rfl
      simp [h, Except.isOk, Except.toBool] at finishes
  | ok replay =>
      obtain ⟨readings, read, same, -⟩ := snapshots_eq_history h
      rw [read] at reads
      exact ⟨replay, rfl, readings, read, same, Except.ok.inj reads⟩

end Replay

end CallTimeline.Trace
