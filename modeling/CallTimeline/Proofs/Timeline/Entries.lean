import CallTimeline.Proofs.Trace.OpenCalls
import CallTimeline.Timeline.Build

namespace CallTimeline

namespace Trace.Replay

variable {settings : Settings} {replay : Replay}

def Numbered (replay : Replay) : Prop :=
  ∀ (i : Nat) (event : Event), replay.events[i]? = some event → event.seq = i + 1

theorem numbered_empty : Numbered {} := by
  intro i event at_
  simp at at_

theorem Numbered.push {other : Replay} {last : Event} (h : replay.Numbered)
    (events : other.events = replay.events.push last) (number : last.seq = replay.events.size + 1) :
    other.Numbered := by
  intro i event at_
  rw [events, Array.getElem?_push] at at_
  split at at_
  case isTrue here =>
    cases at_
    rw [number, here]
  case isFalse => exact h i event at_

theorem Numbered.leave (h : replay.Numbered) (columns : Columns) (depth : Nat) :
    (replay.leave columns depth).Numbered := by
  intro i event at_
  have undated := congrArg (·[i]?) (@map_undated_leave replay columns depth)
  simp only [List.getElem?_map, Array.getElem?_toList, at_, Option.map_some] at undated
  obtain ⟨before, at_before, same⟩ := Option.map_eq_some_iff.mp undated.symm
  have number : before.undated.seq = event.undated.seq := by rw [same]
  calc event.seq = before.seq := number.symm
    _ = i + 1 := h i before at_before

theorem Numbered.read (h : replay.Numbered) (reading : Reading) :
    (replay.read settings reading).Numbered := by
  have counted : Numbered { replay with linesRead := replay.linesRead + 1 } := h
  cases reading with
  | enter columns depth function => exact counted.push rfl rfl
  | leave columns depth => exact counted.leave columns depth
  | call columns depth function => exact counted.push rfl rfl
  | skip => exact counted

theorem Numbered.readAll (h : replay.Numbered) (readings : List Reading) :
    (replay.readAll settings readings).Numbered := by
  induction readings generalizing replay with
  | nil => exact h
  | cons reading rest ih => exact ih (h.read reading)

theorem Numbered.mergeSort_eq (h : replay.Numbered) :
    replay.events.toList.mergeSort (fun a b => a.seq ≤ b.seq) = replay.events.toList := by
  apply List.mergeSort_of_pairwise
  rw [List.pairwise_iff_getElem]
  intro i j hi hj before
  have left := h i _ (Array.getElem?_eq_some_iff.mpr ⟨hi, rfl⟩)
  have right := h j _ (Array.getElem?_eq_some_iff.mpr ⟨hj, rfl⟩)
  simp only [Array.getElem_toList, left, right, decide_eq_true_eq]
  omega

theorem numbered_of_run {lines : List (List Char)} (h : run settings lines = .ok replay) :
    replay.Numbered := by
  obtain ⟨readings, -, rfl⟩ := readings_of_run settings h
  exact numbered_empty.readAll readings

end Trace.Replay

namespace Timeline

open Trace

variable (settings : Trace.Settings)

theorem mem_entriesFrom {done : List Entry} {step : Nat} {current : Direction}
    {events : List Event} {entry : Entry}
    (member : entry ∈ entriesFrom settings done step current events) :
    entry ∈ done ∨ ∃ step event flow, entry = entryAt settings step event flow := by
  induction events generalizing done step current with
  | nil => exact .inl (List.mem_reverse.mp member)
  | cons event rest ih =>
      obtain before | later := ih member
      · obtain rfl | before := List.mem_cons.mp before
        · exact .inr ⟨step, event, _, rfl⟩
        · exact .inl before
      · exact .inr later

theorem exists_entryAt {replay : Replay} {entry : Entry}
    (member : entry ∈ (ofReplay settings replay).entries) :
    ∃ step event flow, entry = entryAt settings step event flow :=
  (mem_entriesFrom settings member).resolve_left List.not_mem_nil

section

variable {α : Type} {view : Entry → α} {viewEvent : Event → α}
  (shown : ∀ step event flow, view (entryAt settings step event flow) = viewEvent event)

include shown

theorem map_entriesFrom (done : List Entry) (step : Nat) (current : Direction)
    (events : List Event) :
    (entriesFrom settings done step current events).map view =
      done.reverse.map view ++ events.map viewEvent := by
  induction events generalizing done step current with
  | nil => simp [entriesFrom]
  | cons event rest ih => simp [entriesFrom, ih, shown]

theorem map_ofReplay {replay : Replay} (numbered : replay.Numbered) :
    (ofReplay settings replay).entries.map view = replay.events.toList.map viewEvent := by
  rw [ofReplay, ofEvents, numbered.mergeSort_eq]
  exact map_entriesFrom settings shown [] 1 .other _

end

theorem map_duration_ofReplay {replay : Replay} (numbered : replay.Numbered) :
    (ofReplay settings replay).entries.map (·.duration) = replay.events.toList.map durationOf :=
  map_ofReplay settings (fun _ _ _ => rfl) numbered

theorem exists_event {replay : Replay} (numbered : replay.Numbered) {entry : Entry}
    (member : entry ∈ (ofReplay settings replay).entries) :
    ∃ event ∈ replay.events.toList, entry.function = .str event.function ∧
      entry.stack = event.stack.map (Frame.map .str) := by
  have views : (ofReplay settings replay).entries.map (fun entry => (entry.function, entry.stack)) =
      replay.events.toList.map fun event =>
        (.str event.function, event.stack.map (Frame.map .str)) :=
    map_ofReplay settings (fun _ _ _ => rfl) numbered
  obtain ⟨event, among, same⟩ := List.mem_map.mp (views ▸ List.mem_map.mpr ⟨entry, member, rfl⟩)
  exact ⟨event, among, (Prod.ext_iff.mp same).1.symm, (Prod.ext_iff.mp same).2.symm⟩

theorem exists_entry {replay : Replay} (numbered : replay.Numbered) {event : Event}
    (among : event ∈ replay.events.toList) :
    ∃ entry ∈ (ofReplay settings replay).entries, entry.function = .str event.function := by
  have functions : (ofReplay settings replay).entries.map (·.function) =
      replay.events.toList.map fun event => .str event.function :=
    map_ofReplay settings (fun _ _ _ => rfl) numbered
  exact List.mem_map.mp (functions ▸ List.mem_map.mpr ⟨event, among, rfl⟩)

theorem entry_of_undated {replay : Replay} (numbered : replay.Numbered) {i : Nat} {event : Event}
    (at_ : replay.events[i]? = some event) (undated : event.duration = none) :
    ∃ entry, (ofReplay settings replay).entries[i]? = some entry ∧ entry.duration = 0.0 := by
  have durations := congrArg (·[i]?) (map_duration_ofReplay settings numbered)
  simp only [List.getElem?_map, Array.getElem?_toList, at_, Option.map_some] at durations
  obtain ⟨entry, found, same⟩ := Option.map_eq_some_iff.mp durations
  refine ⟨entry, found, same.trans ?_⟩
  rw [durationOf, undated]

end Timeline

end CallTimeline
