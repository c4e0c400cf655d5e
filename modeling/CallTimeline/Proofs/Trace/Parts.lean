import CallTimeline.Proofs.Trace.Duration

/-!
# Parts of the events

Of two replays, one may read lines that the other lacks. They are alike in a part of the events if the
same calls are open in both and the events of the part are, but for their numbers, the events of the
other (`Replay.Alike`). A line that both read keeps them alike if its event belongs to the part
(`Alike.read`).
-/

namespace CallTimeline.Trace

def Event.unnumbered (event : Event) : Event :=
  { event with seq := 0 }

structure Part where
  has : Event → Bool
  has_undated : ∀ event, has event.undated = has event

theorem Part.has_timed (part : Part) (duration : Float) (event : Event) :
    part.has (event.timed duration) = part.has event := by
  rw [← part.has_undated (event.timed duration), ← part.has_undated event]
  rfl

theorem filter_modify {α : Type} {p : α → Bool} {g : α → α} (keeps : ∀ a, p (g a) = p a)
    {xs : List α} {i : Nat} {a : α} (at_ : xs[i]? = some a) (holds : p a = true) :
    (xs.modify i g).filter p = (xs.filter p).modify ((xs.take i).countP p) g := by
  induction xs generalizing i with
  | nil => cases at_
  | cons x xs ih =>
      cases i with
      | zero =>
          obtain rfl : x = a := Option.some.inj at_
          rw [List.modify_zero_cons, List.filter_cons_of_pos ((keeps x).trans holds),
            List.filter_cons_of_pos holds, List.take_zero, List.countP_nil, List.modify_zero_cons]
      | succ i =>
          rw [List.getElem?_cons_succ] at at_
          rw [List.modify_succ_cons, List.take_succ_cons]
          by_cases keep : p x = true
          · rw [List.filter_cons_of_pos keep, List.filter_cons_of_pos keep,
              List.countP_cons_of_pos keep, List.modify_succ_cons, ih at_]
          · rw [List.filter_cons_of_neg keep, List.filter_cons_of_neg keep,
              List.countP_cons_of_neg keep, ih at_]

theorem map_modify_comm {α β : Type} {f : α → β} {g : α → α} {g' : β → β}
    (comm : ∀ a, f (g a) = g' (f a)) (xs : List α) (i : Nat) :
    (xs.modify i g).map f = (xs.map f).modify i g' := by
  apply List.ext_getElem? fun j => ?_
  rw [List.getElem?_map, List.getElem?_modify, List.getElem?_modify, List.getElem?_map]
  cases xs[j]? with
  | none => rfl
  | some a => by_cases here : i = j <;> simp [here, comm]

namespace Replay

variable {settings : Settings} {replay alone : Replay} {part : Part}

def added? (settings : Settings) (replay : Replay) : Reading → Option Event
  | .enter columns depth function =>
    some (replay.nextEvent settings columns function .entry depth none)
  | .call columns depth function =>
    some (replay.nextEvent settings columns function .call depth (some (duration columns.duration)))
  | _ => none

def eventsIn (replay : Replay) (part : Part) : List Event :=
  replay.events.toList.filter part.has

def rank (replay : Replay) (part : Part) (i : Nat) : Nat :=
  (replay.events.toList.take i).countP part.has

def renumber (replay : Replay) (part : Part) (call : OpenCall) : OpenCall :=
  { call with event := replay.rank part call.event }

theorem rank_eq (replay : Replay) (part : Part) (i : Nat) :
    replay.rank part i =
      ((replay.events.toList.map Event.undated).take i).countP part.has := by
  rw [← List.map_take, List.countP_map, rank]
  exact List.countP_congr fun event _ => by rw [Function.comp_apply, part.has_undated]

theorem rank_readAll (replay : Replay) (readings : List Reading) {i : Nat}
    (inside : i ≤ replay.events.size) :
    (replay.readAll settings readings).rank part i = replay.rank part i := by
  obtain ⟨more, split⟩ := @map_undated_readAll settings replay readings
  rw [rank_eq, rank_eq, ← split, List.take_append_of_le_length]
  simpa using inside

theorem rank_size (replay : Replay) (part : Part) :
    replay.rank part replay.events.size = (replay.eventsIn part).length := by
  rw [rank, ← Array.length_toList, List.take_length, List.countP_eq_length_filter, eventsIn]

/-- The replay that lacks lines has the same calls open, and but for their numbers its events are
those of the part. -/
structure Alike (part : Part) (replay alone : Replay) : Prop where
  calls : alone.openCalls = replay.openCalls.map (replay.renumber part)
  own : ∀ call ∈ replay.openCalls,
    ∃ event, replay.events[call.event]? = some event ∧ part.has event = true
  events : (replay.eventsIn part).map Event.unnumbered =
    alone.events.toList.map Event.unnumbered

theorem Alike.empty (part : Part) : Alike part {} {} :=
  ⟨rfl, nofun, rfl⟩

section

variable (alike : Alike part replay alone)

include alike

theorem Alike.size_eq : replay.rank part replay.events.size = alone.events.size := by
  have lengths := congrArg List.length alike.events
  simpa [rank_size] using lengths

theorem Alike.inside {call : OpenCall} (member : call ∈ replay.openCalls) :
    call.event < replay.events.size := by
  obtain ⟨event, at_, -⟩ := alike.own call member
  exact (Array.getElem?_eq_some_iff.mp at_).1

theorem Alike.stackAbove (depth : Nat) :
    alone.stackAbove depth = (replay.stackAbove depth).map (replay.renumber part) := by
  rw [Replay.stackAbove, alike.calls, List.filter_map]
  rfl

theorem Alike.map_renumber (readings : List Reading) {calls : List OpenCall}
    (open_ : ∀ call ∈ calls, call ∈ replay.openCalls) :
    calls.map ((replay.readAll settings readings).renumber part) =
      calls.map (replay.renumber part) := by
  refine List.map_congr_left fun call member => ?_
  have inside := Nat.le_of_lt (alike.inside (open_ call member))
  rw [renumber, renumber, replay.rank_readAll readings inside]

theorem Alike.unnumbered_nextEvent (columns : Columns) (function : String) (kind : Kind)
    (depth : Nat) (duration : Option Float) :
    (replay.nextEvent settings columns function kind depth duration).unnumbered =
      (alone.nextEvent settings columns function kind depth duration).unnumbered := by
  have frames : (alone.stackAbove depth).map (·.frame) =
      (replay.stackAbove depth).map (·.frame) := by
    rw [alike.stackAbove, List.map_map]
    rfl
  simp only [Event.unnumbered, nextEvent, frames]

theorem Alike.push {event event' : Event} (same : event.unnumbered = event'.unnumbered)
    (kept : part.has event = true) :
    ((replay.events.push event).toList.filter part.has).map Event.unnumbered =
      (alone.events.push event').toList.map Event.unnumbered := by
  rw [Array.toList_push, Array.toList_push, List.filter_append, List.map_append, List.map_append,
    List.filter_cons_of_pos kept, ← alike.events, List.filter_nil, List.map_singleton,
    List.map_singleton, same]
  rfl

theorem Alike.own_push {event : Event} {call : OpenCall} (member : call ∈ replay.openCalls) :
    ∃ event', (replay.events.push event)[call.event]? = some event' ∧
      part.has event' = true := by
  obtain ⟨event', at_, kept⟩ := alike.own call member
  exact ⟨event', getElem?_push_of_some at_ event, kept⟩

theorem Alike.enter (columns : Columns) (depth : Nat) (function : String)
    (kept : part.has (replay.nextEvent settings columns function .entry depth none) = true) :
    Alike part (replay.read settings (.enter columns depth function))
      (alone.read settings (.enter columns depth function)) := by
  have above : ∀ call ∈ replay.stackAbove depth, call ∈ replay.openCalls :=
    fun call member => (mem_stackAbove.mp member).1
  have renumbered (calls : List OpenCall) (open_ : ∀ call ∈ calls, call ∈ replay.openCalls) :=
    @Alike.map_renumber settings _ _ _ alike [.enter columns depth function] calls open_
  have last : (replay.readAll settings [.enter columns depth function]).rank part
      replay.events.size = alone.events.size := by
    rw [replay.rank_readAll _ (Nat.le_refl _), alike.size_eq]
  refine ⟨?_, fun call member => ?_, ?_⟩
  · change alone.stackAbove depth ++ [_] = List.map _ (replay.stackAbove depth ++ [_])
    rw [List.map_append, alike.stackAbove]
    refine congrArg₂ (· ++ ·) (renumbered _ above).symm ?_
    exact congrArg (fun i => [OpenCall.mk (frameOf settings function depth) i]) last.symm
  · obtain around | new := List.mem_append.mp member
    · exact alike.own_push (above call around)
    · obtain rfl := List.mem_singleton.mp new
      exact ⟨_, Array.getElem?_push_size, kept⟩
  · exact alike.push (alike.unnumbered_nextEvent columns function .entry depth none) kept

theorem Alike.call (columns : Columns) (depth : Nat) (function : String)
    (kept : part.has (replay.nextEvent settings columns function .call depth
      (some (duration columns.duration))) = true) :
    Alike part (replay.read settings (.call columns depth function))
      (alone.read settings (.call columns depth function)) := by
  have renumbered := @Alike.map_renumber settings _ _ _ alike [.call columns depth function] _
    fun call member => member
  refine ⟨alike.calls.trans renumbered.symm, fun call member => alike.own_push member, ?_⟩
  exact alike.push (alike.unnumbered_nextEvent columns function .call depth _) kept

theorem Alike.closing? (h : replay.Nested) (h' : alone.Nested) (depth : Nat) :
    alone.closing? depth = (replay.closing? depth).map (replay.renumber part) := by
  rw [h'.closing?_eq, h.closing?_eq, alike.calls, List.getLast?_map]
  cases replay.openCalls.getLast? with
  | none => rfl
  | some top =>
      simp only [Option.map_some, Option.filter_some, renumber]
      split <;> rfl

theorem Alike.events_leave (h : replay.Nested) (h' : alone.Nested) (columns : Columns)
    (depth : Nat) :
    ((replay.leave columns depth).eventsIn part).map Event.unnumbered =
      (alone.leave columns depth).events.toList.map Event.unnumbered := by
  have closes' := alike.closing? h h' depth
  unfold Replay.leave eventsIn
  cases closes : replay.closing? depth with
  | none =>
      rw [closes, Option.map_none] at closes'
      rw [closes']
      exact alike.events
  | some top =>
      rw [closes, Option.map_some] at closes'
      obtain ⟨event, at_, kept⟩ := alike.own top (closing?_some closes).1
      rw [closes']
      let write := Event.timed (duration columns.duration)
      have comm (event : Event) : (write event).unnumbered = write event.unnumbered := rfl
      change List.map _ (List.filter _ (Array.modify _ top.event write).toList) =
        List.map _ (Array.modify _ (replay.rank part top.event) write).toList
      rw [Array.toList_modify, Array.toList_modify,
        filter_modify (part.has_timed _) (by rwa [Array.getElem?_toList]) kept,
        map_modify_comm comm, map_modify_comm comm, ← alike.events]
      rfl

theorem Alike.leave (h : replay.Nested) (h' : alone.Nested) (columns : Columns) (depth : Nat) :
    Alike part (replay.leave columns depth) (alone.leave columns depth) := by
  have rank_leave (i : Nat) : (replay.leave columns depth).rank part i = replay.rank part i := by
    rw [rank_eq, rank_eq, map_undated_leave]
  refine ⟨?_, fun call member => ?_, alike.events_leave h h' columns depth⟩
  · change alone.stackAbove depth = List.map _ (replay.stackAbove depth)
    rw [alike.stackAbove]
    refine List.map_congr_left fun call _ => ?_
    rw [renumber, renumber, rank_leave]
  · obtain ⟨event, at_, kept⟩ := alike.own call (mem_stackAbove.mp member).1
    obtain ⟨outer, inner, split⟩ :=
      List.append_of_mem (show call ∈ replay.stackAbove depth from member)
    have above : outer ++ [call] <+: replay.stackAbove depth := ⟨inner, by simp [split]⟩
    have open_ := above.trans (h.stackAbove_prefix depth)
    refine ⟨event, ?_, kept⟩
    rw [h.getElem?_leave columns open_ (mem_stackAbove.mp member).2, at_]

theorem Alike.read (h : replay.Nested) (h' : alone.Nested) {reading : Reading}
    (kept : ∀ event ∈ replay.added? settings reading, part.has event = true) :
    Alike part (replay.read settings reading) (alone.read settings reading) := by
  cases reading with
  | enter columns depth function => exact alike.enter columns depth function (kept _ rfl)
  | call columns depth function => exact alike.call columns depth function (kept _ rfl)
  | leave columns depth =>
      have counted : Alike part { replay with linesRead := replay.linesRead + 1 }
          { alone with linesRead := alone.linesRead + 1 } := ⟨alike.calls, alike.own, alike.events⟩
      exact counted.leave (h.congr rfl rfl) (h'.congr rfl rfl) columns depth
  | skip => exact ⟨alike.calls, alike.own, alike.events⟩

end

end Replay

end CallTimeline.Trace
