import CallTimeline.Proofs.Trace.Parts

/-!
# Traces of several cpus

A trace is an interleaving of the lines of its cpus, but a replay keeps one stack for all of them.
What a line says about its own event does not depend on the lines around it, so for each cpu this
much is the same as in a replay of its lines alone (`outlines_of_picks`). Its call stacks and the
durations of its entries are the same as well if the lines of other cpus do not touch what it has
open (`Alike.readAll`); both together are `run_of_cpu`.
-/

namespace CallTimeline.Trace

/-! ## The lines of a cpu -/

def carries (cpu : Nat) (line : List Char) : Bool :=
  match Columns.ofLine line with
  | .ok (some columns) => columns.cpu == cpu
  | _ => false

def Reading.cpu? : Reading → Option Nat
  | .enter columns _ _ => some columns.cpu
  | .leave columns _ => some columns.cpu
  | .call columns _ _ => some columns.cpu
  | .skip => none

/-- The readings of a cpu among others: all that are of this cpu, and some that say nothing. -/
inductive Picks (cpu : Nat) : List Reading → List Reading → Prop where
  | nil : Picks cpu [] []
  | own {reading : Reading} {readings own : List Reading} :
      reading.cpu? = some cpu → Picks cpu readings own →
        Picks cpu (reading :: readings) (reading :: own)
  | idle {readings own : List Reading} :
      Picks cpu readings own → Picks cpu (.skip :: readings) (.skip :: own)
  | other {reading : Reading} {readings own : List Reading} :
      reading.cpu? ≠ some cpu → Picks cpu readings own → Picks cpu (reading :: readings) own

section

variable {settings : Settings} {cpu : Nat}

theorem Reading.cpu?_ofColumns {columns : Columns} {reading : Reading}
    (read : ofColumns settings columns = .ok reading) :
    reading = .skip ∨ reading.cpu? = some columns.cpu := by
  obtain ⟨-, rfl⟩ | ⟨-, rfl⟩ | ⟨token, function, -, ⟨-, rfl⟩ | ⟨-, rfl⟩⟩ :=
    ofColumns_cases settings read
  · exact .inl rfl
  all_goals exact .inr rfl

theorem carries_iff {line : List Char} :
    carries cpu line = true ↔
      ∃ columns, Columns.ofLine line = .ok (some columns) ∧ columns.cpu = cpu := by
  unfold carries
  split
  case h_1 columns columns_eq => simp [columns_eq]
  case h_2 noColumns =>
    refine iff_of_false Bool.false_ne_true ?_
    rintro ⟨columns, columns_eq, -⟩
    exact noColumns columns columns_eq

theorem Reading.cpu?_of_carries {line : List Char} {reading : Reading}
    (read : ofLine settings line = .ok reading) (carried : carries cpu line = true) :
    reading = .skip ∨ reading.cpu? = some cpu := by
  obtain ⟨columns, columns_eq, rfl⟩ := carries_iff.mp carried
  rw [ofLine_of_columns settings columns_eq] at read
  exact cpu?_ofColumns read

theorem Reading.cpu?_of_not_carries {line : List Char} {reading : Reading}
    (read : ofLine settings line = .ok reading) (foreign : ¬ carries cpu line = true) :
    reading.cpu? ≠ some cpu := by
  obtain ⟨columns, columns_eq, read⟩ := of_bind_ok read
  cases columns with
  | none =>
      cases read
      nofun
  | some columns =>
      obtain rfl | same := cpu?_ofColumns read
      · nofun
      · rw [same]
        exact fun own => foreign (carries_iff.mpr ⟨columns, columns_eq, Option.some.inj own⟩)

theorem picks_of_mapM {lines : List (List Char)} {readings : List Reading}
    (read : lines.mapM (Reading.ofLine settings) = .ok readings) (cpu : Nat) :
    ∃ own, (lines.filter (carries cpu)).mapM (Reading.ofLine settings) = .ok own ∧
      Picks cpu readings own := by
  induction lines generalizing readings with
  | nil =>
      cases read
      exact ⟨[], rfl, .nil⟩
  | cons line rest ih =>
      obtain ⟨reading, head, later, tail, rfl⟩ := mapM_cons_eq_ok.mp read
      obtain ⟨own, own_eq, picks⟩ := ih tail
      by_cases carried : carries cpu line = true
      · refine ⟨reading :: own, ?_, ?_⟩
        · rw [List.filter_cons_of_pos carried]
          exact mapM_cons_eq_ok.mpr ⟨reading, head, own, own_eq, rfl⟩
        · obtain rfl | same := Reading.cpu?_of_carries head carried
          · exact picks.idle
          · exact picks.own same
      · refine ⟨own, by rwa [List.filter_cons_of_neg carried], ?_⟩
        exact picks.other (Reading.cpu?_of_not_carries head carried)

end

/-! ## What a line says about its event -/

/-- An event without its number, its stack, and a duration that comes from another line. -/
def Event.outline (event : Event) : Event :=
  { event with
    seq := 0
    stack := []
    duration := if event.kind = .call then event.duration else none }

theorem Event.undated_of_none {event : Event} (h : event.duration = none) :
    event.undated = event := by
  rw [undated, ← h]

def Event.isOf (cpu : Nat) (event : Event) : Bool :=
  event.cpu == cpu

def Reading.outline? : Reading → Option Event
  | .enter columns depth function =>
    some { seq := 0, function, kind := .entry, depth, stack := [], cpu := columns.cpu,
           task := String.ofList columns.task, duration := none }
  | .call columns depth function =>
    some { seq := 0, function, kind := .call, depth, stack := [], cpu := columns.cpu,
           task := String.ofList columns.task, duration := some (duration columns.duration) }
  | _ => none

theorem Reading.isOf_outline {reading : Reading} {event : Event} {cpu : Nat}
    (gives : event ∈ reading.outline?) :
    event.isOf cpu = true ↔ reading.cpu? = some cpu := by
  cases reading with
  | enter columns depth function => cases gives; simp [Event.isOf, cpu?]
  | call columns depth function => cases gives; simp [Event.isOf, cpu?]
  | leave columns depth => cases gives
  | skip => cases gives

namespace Replay

variable {settings : Settings} {replay alone : Replay} {cpu : Nat}

def eventsOf (replay : Replay) (cpu : Nat) : List Event :=
  replay.events.toList.filter (Event.isOf cpu)

theorem Nested.outlines_leave (h : replay.Nested) (columns : Columns) (depth : Nat) :
    (replay.leave columns depth).events.toList.map Event.outline =
      replay.events.toList.map Event.outline := by
  unfold Replay.leave
  cases closes : replay.closing? depth with
  | none => rfl
  | some call =>
      obtain ⟨event, at_, entry, -⟩ := h.undated (closing?_some closes).1
      rw [Array.toList_modify]
      refine map_modify_of_getElem? fun event' at' => ?_
      rw [Array.getElem?_toList, at_] at at'
      cases at'
      simp [Event.outline, entry]

theorem Nested.outlines_read (h : replay.Nested) (reading : Reading) :
    (replay.read settings reading).events.toList.map Event.outline =
      replay.events.toList.map Event.outline ++ reading.outline?.toList := by
  have counted : Nested { replay with linesRead := replay.linesRead + 1 } := h.congr rfl rfl
  cases reading with
  | enter columns depth function =>
      change List.map _ (Array.push _ _).toList = _
      rw [Array.toList_push, List.map_append]
      rfl
  | leave columns depth =>
      exact (counted.outlines_leave columns depth).trans (List.append_nil _).symm
  | call columns depth function =>
      change List.map _ (Array.push _ _).toList = _
      rw [Array.toList_push, List.map_append]
      rfl
  | skip => exact (List.append_nil _).symm

theorem Nested.outlines_readAll (h : replay.Nested) (readings : List Reading) :
    (replay.readAll settings readings).events.toList.map Event.outline =
      replay.events.toList.map Event.outline ++ readings.filterMap Reading.outline? := by
  induction readings generalizing replay with
  | nil => exact (List.append_nil _).symm
  | cons reading rest ih =>
      rw [readAll_cons, ih (h.read reading), h.outlines_read reading, List.append_assoc]
      cases reading <;> rfl

theorem map_outline_eventsOf (replay : Replay) (cpu : Nat) :
    (replay.eventsOf cpu).map Event.outline =
      (replay.events.toList.map Event.outline).filter (Event.isOf cpu) := by
  rw [eventsOf, List.filter_map]
  rfl

theorem outlines_of_picks {readings own : List Reading} (picks : Picks cpu readings own) :
    ((readAll settings {} readings).eventsOf cpu).map Event.outline =
      (readAll settings {} own).events.toList.map Event.outline := by
  rw [map_outline_eventsOf, nested_empty.outlines_readAll, nested_empty.outlines_readAll]
  change List.filter _ (readings.filterMap Reading.outline?) = own.filterMap Reading.outline?
  induction picks with
  | nil => rfl
  | @own reading readings own same picks ih =>
      cases gives : reading.outline? with
      | none => rw [List.filterMap_cons_none gives, List.filterMap_cons_none gives, ih]
      | some event =>
          have ofCpu := (Reading.isOf_outline gives).mpr same
          rw [List.filterMap_cons_some gives, List.filterMap_cons_some gives,
            List.filter_cons_of_pos ofCpu, ih]
  | idle picks ih => exact ih
  | @other reading readings own foreign picks ih =>
      cases gives : reading.outline? with
      | none => rw [List.filterMap_cons_none gives, ih]
      | some event =>
          have notOf := mt (Reading.isOf_outline gives).mp foreign
          rw [List.filterMap_cons_some gives, List.filter_cons_of_neg notOf, ih]

/-! ## Lines of other cpus -/

theorem Nested.getElem?_events_read_of_closed (h : replay.Nested) (reading : Reading) {i : Nat}
    (inside : i < replay.events.size) (closed : ∀ call ∈ replay.openCalls, call.event ≠ i) :
    (∀ call ∈ (replay.read settings reading).openCalls, call.event ≠ i) ∧
      (replay.read settings reading).events[i]? = replay.events[i]? := by
  have counted : Nested { replay with linesRead := replay.linesRead + 1 } := h.congr rfl rfl
  have above (depth : Nat) : ∀ call ∈ replay.stackAbove depth, call.event ≠ i :=
    fun call member => closed call (mem_stackAbove.mp member).1
  have pushed (last : Event) : (replay.events.push last)[i]? = replay.events[i]? := by
    rw [Array.getElem?_push_lt inside, Array.getElem?_eq_getElem inside]
  cases reading with
  | enter columns depth function =>
      refine ⟨fun call member => ?_, pushed _⟩
      obtain around | last := List.mem_append.mp member
      · exact above depth call around
      · obtain rfl := List.mem_singleton.mp last
        exact Nat.ne_of_gt inside
  | leave columns depth =>
      have untouched := counted.getElem?_events_leave columns depth fun ⟨top, last, _, same⟩ =>
        closed top (List.mem_of_getLast? last) same
      exact ⟨above depth, untouched⟩
  | call columns depth function => exact ⟨closed, pushed _⟩
  | skip => exact ⟨closed, rfl⟩

theorem Nested.getElem?_events_readAll_of_closed (h : replay.Nested) (readings : List Reading)
    {i : Nat} (inside : i < replay.events.size)
    (closed : ∀ call ∈ replay.openCalls, call.event ≠ i) :
    (replay.readAll settings readings).events[i]? = replay.events[i]? := by
  induction readings generalizing replay with
  | nil => rfl
  | cons reading rest ih =>
      obtain ⟨closed', same⟩ := @getElem?_events_read_of_closed settings _ h reading i inside closed
      have inside' : i < (replay.read settings reading).events.size := by
        rw [size_events_read]
        exact Nat.lt_of_lt_of_le inside (Nat.le_add_right _ _)
      rw [readAll_cons, ih (h.read reading) inside' closed', same]

theorem Nested.events_prefix (h : replay.Nested) {readings : List Reading}
    (kept : replay.openCalls <+: (replay.readAll settings readings).openCalls) :
    replay.events.toList <+: (replay.readAll settings readings).events.toList := by
  refine List.prefix_iff_getElem?.mpr fun i inside => ?_
  rw [← List.getElem?_eq_getElem inside, Array.getElem?_toList, Array.getElem?_toList]
  rw [Array.length_toList] at inside
  by_cases open_ : ∃ call ∈ replay.openCalls, call.event = i
  · -- The call is open before and behind the lines, and open calls have no duration.
    obtain ⟨call, member, rfl⟩ := open_
    obtain ⟨event, at_, -, none_⟩ := h.undated member
    obtain ⟨event', at', -, none'⟩ := (@readAll settings _ h readings).undated (kept.subset member)
    have same := (@map_undated_readAll settings replay readings).getElem
      (by simpa using inside : call.event < _)
    simp only [List.getElem_map, Array.getElem_toList] at same
    obtain ⟨_, rfl⟩ := Array.getElem?_eq_some_iff.mp at'
    obtain ⟨_, rfl⟩ := Array.getElem?_eq_some_iff.mp at_
    rw [at', at_, ← Event.undated_of_none none', ← same, Event.undated_of_none none_]
  · exact h.getElem?_events_readAll_of_closed readings inside fun call member same =>
      open_ ⟨call, member, same⟩

theorem Nested.eventsOf_of_others (h : replay.Nested) {others : List Reading}
    (foreign : ∀ reading ∈ others, reading.cpu? ≠ some cpu)
    (kept : replay.openCalls <+: (replay.readAll settings others).openCalls) :
    (replay.readAll settings others).eventsOf cpu = replay.eventsOf cpu := by
  obtain ⟨more, split⟩ := h.events_prefix kept
  have outlines := @outlines_readAll settings _ h others
  rw [← split, List.map_append, List.append_cancel_left_eq] at outlines
  have notOf : more.filter (Event.isOf cpu) = [] := by
    refine List.filter_eq_nil_iff.mpr fun event member ofCpu => ?_
    have among : event.outline ∈ more.map Event.outline := List.mem_map_of_mem member
    rw [outlines] at among
    obtain ⟨reading, given, gives⟩ := List.mem_filterMap.mp among
    exact foreign reading given ((Reading.isOf_outline gives).mp ofCpu)
  rw [eventsOf, ← split, List.filter_append, notOf, List.append_nil, eventsOf]

/-! ## A cpu among others and alone -/

def ofCpu (cpu : Nat) : Part where
  has := Event.isOf cpu
  has_undated _ := rfl

theorem alike_empty (cpu : Nat) : Alike (ofCpu cpu) {} {} :=
  .empty _

theorem Alike.others (alike : Alike (ofCpu cpu) replay alone) (h : replay.Nested)
    {others : List Reading} (foreign : ∀ reading ∈ others, reading.cpu? ≠ some cpu)
    (same : (replay.readAll settings others).openCalls = replay.openCalls) :
    Alike (ofCpu cpu) (replay.readAll settings others) alone := by
  have kept : replay.openCalls <+: (replay.readAll settings others).openCalls :=
    same ▸ List.prefix_refl _
  refine ⟨?_, fun call member => ?_, ?_⟩
  · rw [same, alike.map_renumber others fun _ member => member, alike.calls]
  · rw [same] at member
    obtain ⟨event, at_, isOf⟩ := alike.own call member
    obtain ⟨more, split⟩ := @Nested.events_prefix settings _ h others kept
    refine ⟨event, ?_, isOf⟩
    rw [← Array.getElem?_toList] at at_ ⊢
    rw [← split, List.getElem?_append_left (by simpa using alike.inside member), at_]
  · have events := h.eventsOf_of_others foreign kept
    exact (congrArg (List.map Event.unnumbered) events).trans alike.events

theorem isOf_added? {reading : Reading} (same : reading.cpu? = some cpu) {event : Event}
    (adds : event ∈ replay.added? settings reading) : event.isOf cpu = true := by
  cases reading with
  | enter columns depth function =>
      cases adds
      cases same
      simp [Event.isOf, nextEvent]
  | call columns depth function =>
      cases adds
      cases same
      simp [Event.isOf, nextEvent]
  | leave columns depth => cases adds
  | skip => cases adds

/-- Whether the lines of other cpus leave alone what a cpu has open. The calls that are open behind
a line of the cpu (`known`) have to be those that are open before its next one, and have to stay open
behind its last one. -/
def Undisturbed (settings : Settings) (cpu : Nat) (known : List OpenCall) (replay : Replay) :
    List Reading → Prop
  | [] => known <+: replay.openCalls
  | reading :: rest =>
    let next := replay.read settings reading
    if reading.cpu? = some cpu then
      replay.openCalls = known ∧ Undisturbed settings cpu next.openCalls next rest
    else Undisturbed settings cpu known next rest

deriving instance DecidableEq for OpenCall

instance decidableUndisturbed (settings : Settings) (cpu : Nat) (known : List OpenCall)
    (replay : Replay) : (readings : List Reading) →
      Decidable (Undisturbed settings cpu known replay readings)
  | [] => inferInstanceAs (Decidable (known <+: replay.openCalls))
  | reading :: rest =>
    have := decidableUndisturbed settings cpu (replay.read settings reading).openCalls
      (replay.read settings reading) rest
    have := decidableUndisturbed settings cpu known (replay.read settings reading) rest
    inferInstanceAs (Decidable (if reading.cpu? = some cpu then
      replay.openCalls = known ∧
        Undisturbed settings cpu (replay.read settings reading).openCalls
          (replay.read settings reading) rest
    else Undisturbed settings cpu known (replay.read settings reading) rest))

theorem readAll_concat (replay : Replay) (readings : List Reading) (last : Reading) :
    replay.readAll settings (readings ++ [last]) =
      (replay.readAll settings readings).read settings last :=
  readAll_append settings replay readings [last]

theorem Alike.readAll {readings own others : List Reading} (picks : Picks cpu readings own)
    (alike : Alike (ofCpu cpu) replay alone) (h : replay.Nested) (h' : alone.Nested)
    (foreign : ∀ reading ∈ others, reading.cpu? ≠ some cpu)
    (undisturbed : Undisturbed settings cpu replay.openCalls (replay.readAll settings others)
      readings) :
    (((replay.readAll settings others).readAll settings readings).eventsOf cpu).map
        Event.unnumbered =
      (alone.readAll settings own).events.toList.map Event.unnumbered := by
  -- `others` are the lines of other cpus since the last line of this one.
  induction picks generalizing replay alone others with
  | nil =>
      rw [readAll_nil, readAll_nil, h.eventsOf_of_others foreign undisturbed]
      exact alike.events
  | @own reading readings own same picks ih =>
      rw [Undisturbed, if_pos same] at undisturbed
      have here : (replay.readAll settings others).Nested := h.readAll others
      have alike' : Alike (ofCpu cpu) ((replay.readAll settings others).read settings reading)
          (alone.read settings reading) :=
        (alike.others h foreign undisturbed.1).read here h' fun _ => isOf_added? same
      exact @ih _ _ [] alike' (here.read reading) (h'.read reading) nofun undisturbed.2
  | @idle readings own picks ih =>
      have alike' : Alike (ofCpu cpu) replay (alone.read settings .skip) :=
        ⟨alike.calls, alike.own, alike.events⟩
      rw [Undisturbed, if_neg nofun, ← readAll_concat] at undisturbed
      rw [readAll_cons, ← readAll_concat, readAll_cons]
      refine ih alike' h (h'.read .skip) ?_ undisturbed
      exact List.forall_mem_append.mpr ⟨foreign, List.forall_mem_singleton.mpr nofun⟩
  | @other reading readings own notOwn picks ih =>
      rw [Undisturbed, if_neg notOwn, ← readAll_concat] at undisturbed
      rw [readAll_cons, ← readAll_concat]
      refine ih alike h h' ?_ undisturbed
      exact List.forall_mem_append.mpr ⟨foreign, List.forall_mem_singleton.mpr notOwn⟩

/-- What a trace shows of a cpu, and what the lines of the cpu show alone. Functions, kinds, depths
and tasks of the events are the same, and so are the durations of calls on one line. Stacks and the
durations of entries are the same, too, if other cpus leave alone what this one has open. -/
theorem run_of_cpu (settings : Settings) {lines : List (List Char)}
    (short : ∀ line ∈ lines, ¬ Overlong line) (cpu : Nat) :
    ∃ readings replay alone,
      lines.mapM (Reading.ofLine settings) = .ok readings ∧
      run settings lines = .ok replay ∧
      run settings (lines.filter (carries cpu)) = .ok alone ∧
      (replay.eventsOf cpu).map Event.outline = alone.events.toList.map Event.outline ∧
      (Undisturbed settings cpu [] {} readings →
        (replay.eventsOf cpu).map Event.unnumbered =
          alone.events.toList.map Event.unnumbered) := by
  obtain ⟨readings, read⟩ :=
    mapM_ok_of_forall fun line member => Reading.ofLine_eq_ok settings (short line member)
  obtain ⟨own, own_eq, picks⟩ := picks_of_mapM read cpu
  refine ⟨readings, _, _, read, by rw [run_eq, read]; rfl, by rw [run_eq, own_eq]; rfl,
    outlines_of_picks picks, fun undisturbed => ?_⟩
  exact @Alike.readAll settings _ _ _ _ _ [] picks (alike_empty cpu) nested_empty nested_empty nofun
    undisturbed

theorem run_of_cpu_nested :
    let lines := ["0)   |  f() \x7b".toList, "1)   |    g() \x7b".toList,
      "1) 0.3 us |      h();".toList, "1) 1.0 us |    \x7d".toList,
      "0) 2.0 us |    k();".toList, "0) 5.0 us |  \x7d".toList]
    ∃ replay alone, run {} lines = .ok replay ∧
      run {} (lines.filter (carries 0)) = .ok alone ∧
      (replay.eventsOf 0).map Event.unnumbered = alone.events.toList.map Event.unnumbered := by
  intro lines
  obtain ⟨readings, replay, alone, read, runs, runs', -, same⟩ :=
    @run_of_cpu {} lines (by decide +kernel) 0
  have undisturbed : Undisturbed {} 0 [] {}
      ((lines.mapM (Reading.ofLine {})).toOption.getD []) := by decide +kernel
  rw [read] at undisturbed
  exact ⟨replay, alone, runs, runs', same undisturbed⟩

/-- A call that cpu 0 has left open stands on the stack of cpu 1, whose exit gives it a duration. -/
theorem run_shared_stack :
    let lines := ["0)   |f() \x7b".toList, "1)   |  g();".toList, "1) 5.0 us |\x7d".toList]
    ∃ replay first second, run {} lines = .ok replay ∧
      run {} (lines.filter (carries 0)) = .ok first ∧
      run {} (lines.filter (carries 1)) = .ok second ∧
      (replay.eventsOf 1).map (fun event => event.stack.map (·.function)) = [["f", "g"]] ∧
      second.events.toList.map (fun event => event.stack.map (·.function)) = [["g"]] ∧
      (replay.eventsOf 0).map (·.duration.isSome) = [true] ∧
      first.events.toList.map (·.duration.isSome) = [false] := by
  intro lines
  exact ⟨_, _, _, rfl, rfl, rfl, rfl, rfl, rfl, rfl⟩

end Replay

end CallTimeline.Trace
