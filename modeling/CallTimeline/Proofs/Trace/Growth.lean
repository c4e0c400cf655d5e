import CallTimeline.Proofs.Trace.Faults

namespace CallTimeline.Trace

def Event.timed (duration : Float) (event : Event) : Event :=
  { event with duration := some duration }

inductive Event.Becomes (event : Event) : Event → Prop where
  | same : event.Becomes event
  | timed (entry : event.kind = .entry) (unset : event.duration = none) (duration : Float) :
      event.Becomes (event.timed duration)

theorem Event.Becomes.trans {first second third : Event} (h : first.Becomes second)
    (h' : second.Becomes third) : first.Becomes third := by
  cases h with
  | same => exact h'
  | timed entry unset duration =>
      cases h' with
      | same => exact .timed entry unset duration
      | timed _ unset' _ => cases unset'

theorem Event.Becomes.eq_of_dated {event later : Event} {v : Float} (h : event.Becomes later)
    (dated : event.duration = some v) : later = event := by
  cases h with
  | same => rfl
  | timed _ unset _ =>
      rw [unset] at dated
      cases dated

def Grows (before after : Array Event) : Prop :=
  ∀ (i : Nat) (event : Event), before[i]? = some event →
    ∃ later, after[i]? = some later ∧ event.Becomes later

namespace Grows

theorem refl (events : Array Event) : Grows events events :=
  fun _ event at_ => ⟨event, at_, .same⟩

theorem trans {first second third : Array Event} (h : Grows first second)
    (h' : Grows second third) : Grows first third := by
  intro i event at_
  obtain ⟨later, at_later, becomes⟩ := h i event at_
  obtain ⟨last, at_last, becomes'⟩ := h' i later at_later
  exact ⟨last, at_last, becomes.trans becomes'⟩

theorem push (events : Array Event) (last : Event) : Grows events (events.push last) :=
  fun _ event at_ => ⟨event, Replay.getElem?_push_of_some at_ last, .same⟩

end Grows

namespace Replay

variable {settings : Settings} {replay : Replay}

theorem map_undated_readAll (replay : Replay) (readings : List Reading) :
    replay.events.toList.map Event.undated <+:
      (replay.readAll settings readings).events.toList.map Event.undated := by
  induction readings generalizing replay with
  | nil => exact List.prefix_refl _
  | cons reading rest ih =>
      refine List.IsPrefix.trans ?_ (ih (replay.read settings reading))
      have pushed (last : Event) : replay.events.toList.map Event.undated <+:
          (replay.events.push last).toList.map Event.undated := by
        rw [Array.toList_push, List.map_append]
        exact List.prefix_append _ _
      cases reading with
      | enter columns depth function => exact pushed _
      | leave columns depth =>
          exact (@map_undated_leave { replay with linesRead := replay.linesRead + 1 } columns depth)
            ▸ List.prefix_refl _
      | call columns depth function => exact pushed _
      | skip => exact List.prefix_refl _

theorem Nested.grows_leave (h : replay.Nested) (columns : Columns) (depth : Nat) :
    Grows replay.events (replay.leave columns depth).events := by
  unfold Replay.leave
  cases closes : replay.closing? depth with
  | none => exact .refl _
  | some call =>
      obtain ⟨open_, at_open, entry, unset⟩ := h.undated (closing?_some closes).1
      intro i event at_
      by_cases here : call.event = i
      · subst here
        obtain rfl : open_ = event := Option.some.inj (at_open.symm.trans at_)
        exact ⟨_, by rw [Array.getElem?_modify, if_pos rfl, at_]; rfl,
          .timed entry unset (duration columns.duration)⟩
      · exact ⟨event, by rw [Array.getElem?_modify, if_neg here, at_], .same⟩

theorem Nested.grows_read (h : replay.Nested) (reading : Reading) :
    Grows replay.events (replay.read settings reading).events := by
  have counted : Nested { replay with linesRead := replay.linesRead + 1 } := h.congr rfl rfl
  cases reading with
  | enter columns depth function => exact .push _ _
  | leave columns depth => exact counted.grows_leave columns depth
  | call columns depth function => exact .push _ _
  | skip => exact .refl _

theorem Nested.grows_readAll (h : replay.Nested) (readings : List Reading) :
    Grows replay.events (replay.readAll settings readings).events := by
  induction readings generalizing replay with
  | nil => exact .refl _
  | cons reading rest ih => exact (h.grows_read reading).trans (ih (h.read reading))

/-- Parsing is causal: behind the events of a trace, more lines only add events, and to an entry
among them that has no duration they may give one. The counts of lines add up. -/
theorem run_append_grows {xs ys : List (List Char)} {whole : Replay}
    (h : run settings (xs ++ ys) = .ok whole) :
    ∃ before behind, run settings xs = .ok before ∧ run settings ys = .ok behind ∧
      Grows before.events whole.events ∧
      whole.linesRead = before.linesRead + behind.linesRead ∧
      whole.linesSkipped = before.linesSkipped + behind.linesSkipped := by
  obtain ⟨readings, read, rfl⟩ := readings_of_run settings h
  obtain ⟨early, read_xs, late, read_ys, rfl⟩ := mapM_append_eq_ok.mp read
  refine ⟨_, _, run_of_readings settings read_xs, run_of_readings settings read_ys, ?_, ?_, ?_⟩
  · rw [readAll_append]
    exact (nested_empty.readAll early).grows_readAll late
  · simp only [linesRead_readAll, List.length_append]
    omega
  · simp only [linesSkipped_readAll, List.countP_append]
    omega

theorem run_append_grows_exit :
    let xs := ["0)   |a() \x7b".toList, "0) 1.0 us |  b();".toList]
    let ys := ["0) 7.0 us |\x7d".toList]
    ∃ before whole, run {} xs = .ok before ∧ run {} (xs ++ ys) = .ok whole ∧
      Grows before.events whole.events ∧
      before.events.toList.map (·.duration.isSome) = [false, true] ∧
      whole.events.toList.map (·.duration.isSome) = [true, true] := by
  intro xs ys
  have finishes : ((run {} (xs ++ ys)).map fun whole =>
      whole.events.toList.map (·.duration.isSome)) = .ok [true, true] := by rfl
  have starts : ((run {} xs).map fun before =>
      before.events.toList.map (·.duration.isSome)) = .ok [false, true] := by rfl
  obtain ⟨whole, h, timed⟩ := of_map_ok finishes
  obtain ⟨before, behind, h_xs, -, grows, -⟩ := run_append_grows h
  rw [h_xs] at starts
  exact ⟨before, whole, h_xs, h, grows, Except.ok.inj starts, timed⟩

end Replay

end CallTimeline.Trace
