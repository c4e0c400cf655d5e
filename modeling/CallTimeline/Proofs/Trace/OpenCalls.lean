import CallTimeline.Proofs.Trace.Reading

/-!
# The calls that are open

`Replay.Nested` is the invariant of a replay: each open call is deeper than the one around it, and it
is an entry without a duration whose stack is what is open up to it. So the calls above a depth are
always an initial part of the open ones, and a leaving line writes only into a call that it closes.
-/

namespace CallTimeline.Trace

/-- An event as long as the line that closes it is out of account. -/
def Event.undated (event : Event) : Event :=
  { event with duration := none }

namespace Replay

variable {settings : Settings} {replay : Replay}

structure Nested (replay : Replay) : Prop where
  deeper : replay.openCalls.Pairwise fun outer inner => outer.frame.depth < inner.frame.depth
  entry : ∀ outer call, outer ++ [call] <+: replay.openCalls →
    ∃ event, replay.events[call.event]? = some event ∧ event.kind = .entry ∧
      event.duration = none ∧ event.stack = (outer ++ [call]).map (·.frame)

theorem Nested.undated (h : replay.Nested) {call : OpenCall} (member : call ∈ replay.openCalls) :
    ∃ event, replay.events[call.event]? = some event ∧ event.kind = .entry ∧
      event.duration = none := by
  obtain ⟨outer, inner, split⟩ := List.append_of_mem member
  obtain ⟨event, at_, entry, undated, -⟩ := h.entry outer call ⟨inner, by simp [split]⟩
  exact ⟨event, at_, entry, undated⟩

theorem mem_stackAbove {depth : Nat} {call : OpenCall} :
    call ∈ replay.stackAbove depth ↔ call ∈ replay.openCalls ∧ call.frame.depth < depth := by
  simp [stackAbove]

theorem filter_lt_prefix {calls : List OpenCall} (depth : Int)
    (h : calls.Pairwise fun outer inner => outer.frame.depth < inner.frame.depth) :
    calls.filter (·.frame.depth < depth) <+: calls := by
  induction calls with
  | nil => exact List.prefix_refl _
  | cons call rest ih =>
      obtain ⟨below, h⟩ := List.pairwise_cons.mp h
      by_cases above : call.frame.depth < depth
      · rw [List.filter_cons_of_pos (by simpa using above)]
        exact (List.prefix_cons_inj call).mpr (ih h)
      · -- Whatever stands inside a call that is too deep is too deep itself.
        have none_left : (call :: rest).filter (·.frame.depth < depth) = [] := by
          rw [List.filter_eq_nil_iff]
          intro inner member
          rcases List.mem_cons.mp member with rfl | member
          · simpa using above
          · have := below inner member
            simp only [decide_eq_true_eq]
            omega
        rw [none_left]
        exact List.nil_prefix

theorem Nested.stackAbove_prefix (h : replay.Nested) (depth : Nat) :
    replay.stackAbove depth <+: replay.openCalls :=
  filter_lt_prefix depth h.deeper

theorem closing?_some {depth : Nat} {call : OpenCall} (h : replay.closing? depth = some call) :
    call ∈ replay.openCalls ∧ depth ≤ call.frame.depth := by
  have found := List.find?_some h
  simp only [Bool.and_eq_true, decide_eq_true_eq] at found
  exact ⟨List.mem_reverse.mp (List.mem_of_find?_eq_some h), found.1⟩

theorem map_modify_of_getElem? {α β : Type} {f : α → β} {g : α → α} {xs : List α} {i : Nat}
    (same : ∀ a, xs[i]? = some a → f (g a) = f a) : (xs.modify i g).map f = xs.map f := by
  apply List.ext_getElem? fun j => ?_
  rw [List.getElem?_map, List.getElem?_map, List.getElem?_modify]
  by_cases here : i = j
  · subst here
    cases at_ : xs[i]? with
    | none => rfl
    | some a => simp [same a at_]
  · simp [here]

theorem map_undated_leave (columns : Columns) (depth : Nat) :
    (replay.leave columns depth).events.toList.map Event.undated =
      replay.events.toList.map Event.undated := by
  unfold leave
  cases replay.closing? depth with
  | none => rfl
  | some call =>
      rw [Array.toList_modify]
      exact map_modify_of_getElem? fun event _ => rfl

theorem Nested.getElem?_leave (h : replay.Nested) (columns : Columns) {depth : Nat}
    {outer : List OpenCall} {call : OpenCall} (open_ : outer ++ [call] <+: replay.openCalls)
    (above : call.frame.depth < depth) :
    (replay.leave columns depth).events[call.event]? = replay.events[call.event]? := by
  unfold leave
  cases closes : replay.closing? depth with
  | none => rfl
  | some closed =>
      obtain ⟨member, below⟩ := closing?_some closes
      obtain ⟨around, inside, split⟩ := List.append_of_mem member
      have open' : around ++ [closed] <+: replay.openCalls := ⟨inside, by simp [split]⟩
      obtain ⟨event, at_, -, -, stack⟩ := h.entry outer call open_
      obtain ⟨event', at', -, -, stack'⟩ := h.entry around closed open'
      have ne : closed.event ≠ call.event := by
        intro same
        rw [same, at_, Option.some.injEq] at at'
        subst at'
        have last := congrArg List.getLast? (stack.symm.trans stack')
        simp only [List.map_append, List.map_cons, List.map_nil, List.getLast?_append,
          List.getLast?_singleton, Option.some_or, Option.some.injEq] at last
        rw [last] at above
        omega
      simp only
      rw [Array.getElem?_modify, if_neg ne]

theorem nested_empty : Nested {} where
  deeper := List.Pairwise.nil
  entry outer call h := by simp at h

theorem Nested.congr {other : Replay} (h : replay.Nested)
    (calls : other.openCalls = replay.openCalls) (events : other.events = replay.events) :
    other.Nested where
  deeper := calls ▸ h.deeper
  entry outer call open_ := by
    rw [events]
    exact h.entry outer call (calls ▸ open_)

theorem getElem?_push_of_some {events : Array Event} {i : Nat} {event : Event}
    (at_ : events[i]? = some event) (last : Event) : (events.push last)[i]? = some event := by
  obtain ⟨inside, here⟩ := Array.getElem?_eq_some_iff.mp at_
  rw [Array.getElem?_push_lt inside, here]

theorem Nested.enter (h : replay.Nested) (columns : Columns) (function : String) (depth : Nat) :
    (replay.enter settings columns function depth).Nested where
  deeper := by
    refine List.pairwise_append.mpr
      ⟨h.deeper.sublist (h.stackAbove_prefix depth).sublist, List.pairwise_singleton _ _, ?_⟩
    intro outer outerMem inner innerMem
    rw [List.mem_singleton.mp innerMem]
    exact (mem_stackAbove.mp outerMem).2
  entry outer call open_ := by
    simp only [Replay.enter] at open_ ⊢
    rcases List.prefix_concat_iff.mp open_ with whole | before
    · obtain ⟨rfl, last⟩ := List.append_inj' whole rfl
      obtain rfl := List.singleton_inj.mp last
      exact ⟨_, Array.getElem?_push_size, rfl, rfl, by simp [nextEvent]⟩
    · obtain ⟨event, at_, facts⟩ := h.entry outer call (before.trans (h.stackAbove_prefix depth))
      exact ⟨event, getElem?_push_of_some at_ _, facts⟩

theorem Nested.call (h : replay.Nested) (columns : Columns) (function : String) (depth : Nat) :
    (replay.call settings columns function depth).Nested where
  deeper := h.deeper
  entry outer call open_ := by
    obtain ⟨event, at_, facts⟩ := h.entry outer call open_
    exact ⟨event, getElem?_push_of_some at_ _, facts⟩

theorem Nested.leave (h : replay.Nested) (columns : Columns) (depth : Nat) :
    (replay.leave columns depth).Nested where
  deeper := h.deeper.sublist (h.stackAbove_prefix depth).sublist
  entry outer call open_ := by
    have above : call.frame.depth < depth :=
      (mem_stackAbove.mp (open_.subset (by simp))).2
    have before := open_.trans (h.stackAbove_prefix depth)
    rw [h.getElem?_leave columns before above]
    exact h.entry outer call before

theorem Nested.read (h : replay.Nested) (reading : Reading) :
    (replay.read settings reading).Nested := by
  have counted : Nested { replay with linesRead := replay.linesRead + 1 } := h.congr rfl rfl
  cases reading with
  | enter columns depth function => exact counted.enter columns function depth
  | leave columns depth => exact counted.leave columns depth
  | call columns depth function => exact counted.call columns function depth
  | skip => exact counted.congr rfl rfl

theorem Nested.readAll (h : replay.Nested) (readings : List Reading) :
    (replay.readAll settings readings).Nested := by
  induction readings generalizing replay with
  | nil => exact h
  | cons reading rest ih => exact ih (h.read reading)

end Replay

end CallTimeline.Trace
