import CallTimeline.Proofs.Timeline.Entries
import CallTimeline.Proofs.Trace.Cpus
import CallTimeline.Proofs.Trace.Faults
import CallTimeline.Proofs.Trace.Forms

namespace CallTimeline.Trace

open Text

def body? (line : List Char) : Option (List Char) :=
  match Columns.ofLine line with
  | .ok (some columns) => some columns.body
  | _ => none

theorem oneLine_of_indentedBody? {text body : List Char} {indent : Nat}
    (h : indentedBody? text = some (indent, body)) : '\n' ∉ body := by
  unfold indentedBody? at h
  simp only [Option.ite_none_left_eq_some, Option.some.injEq, Prod.mk.injEq] at h
  obtain ⟨proper, -, rfl⟩ := h
  simp only [Bool.or_eq_true, not_or, List.contains_iff_mem] at proper
  exact proper.2

theorem oneLine_of_innerColumns? {text task duration body : List Char} {indent : Nat}
    (h : innerColumns? text = some (task, duration, indent, body)) : '\n' ∉ body := by
  obtain ⟨⟨first, rest⟩, -, h⟩ := Option.bind_eq_some_iff.mp h
  rcases Option.or_eq_some_iff.mp h with withTask | ⟨-, withoutTask⟩
  · obtain ⟨⟨second, behind⟩, -, h⟩ := Option.bind_eq_some_iff.mp withTask
    obtain ⟨⟨indent', body'⟩, found, h⟩ := Option.bind_eq_some_iff.mp h
    cases h
    exact oneLine_of_indentedBody? found
  · obtain ⟨⟨indent', body'⟩, found, h⟩ := Option.bind_eq_some_iff.mp withoutTask
    cases h
    exact oneLine_of_indentedBody? found

theorem oneLine_of_columns {line : List Char} {columns : Columns}
    (h : Columns.ofLine line = .ok (some columns)) : '\n' ∉ columns.body := by
  unfold Columns.ofLine at h
  dsimp only at h
  split at h
  case isTrue => cases h
  case isFalse =>
    split at h
    case h_1 => cases h
    case h_2 digits rest column =>
      split at h
      case h_1 => cases h
      case h_2 task duration indent body inner =>
        obtain ⟨cpu, -, h⟩ := of_bind_ok h
        cases h
        exact oneLine_of_innerColumns? inner

theorem oneLine_of_body? {line body : List Char} (h : body? line = some body) : '\n' ∉ body := by
  unfold body? at h
  split at h
  case h_1 columns columns_eq =>
    cases h
    exact oneLine_of_columns columns_eq
  case h_2 => cases h

def isExit (line : List Char) : Bool :=
  (body? line).any isLeave

def isIgnored (line : List Char) : Bool :=
  (body? line).all fun body => Body.forms.all fun find => (find body).isNone

def outlineOf? (settings : Settings) (line : List Char) : Option Event :=
  (Reading.ofLine settings line).toOption.bind Reading.outline?

namespace Reading

variable {settings : Settings} {line : List Char} {reading : Reading}

theorem kind_ofColumns {columns : Columns} (read : ofColumns settings columns = .ok reading) :
    (reading.isLeave = true ↔ Body.read? columns.body = some .leave) ∧
      (reading.isSkip = true ↔ Body.read? columns.body = none) := by
  obtain ⟨form, rfl⟩ | ⟨form, rfl⟩ | ⟨token, function, -, ⟨form, rfl⟩ | ⟨form, rfl⟩⟩ :=
    ofColumns_cases settings read
  all_goals simp [isLeave, isSkip, form]

theorem kind_ofLine (read : ofLine settings line = .ok reading) :
    (reading.isLeave = true ↔ ∃ body, body? line = some body ∧ Body.read? body = some .leave) ∧
      (reading.isSkip = true ↔ ∀ body, body? line = some body → Body.read? body = none) := by
  obtain ⟨columns, columns_eq, read⟩ := of_bind_ok read
  cases columns with
  | none =>
      cases read
      simp [body?, columns_eq, isLeave, isSkip]
  | some columns =>
      have kind := kind_ofColumns read
      simpa [body?, columns_eq] using kind

theorem isLeave_eq (read : ofLine settings line = .ok reading) : reading.isLeave = isExit line := by
  rw [Bool.eq_iff_iff, (kind_ofLine read).1, isExit, Option.any_eq_true]
  refine exists_congr fun body => and_congr_right fun found => ?_
  rw [read?_eq_some_iff (oneLine_of_body? found), isLeave_iff (oneLine_of_body? found)]

theorem isSkip_eq (read : ofLine settings line = .ok reading) :
    reading.isSkip = isIgnored line := by
  rw [Bool.eq_iff_iff, (kind_ofLine read).2, isIgnored, Option.all_eq_true]
  refine forall_congr' fun body => imp_congr_right fun _ => ?_
  rw [← findSome?_body_forms, List.findSome?_eq_none_iff, List.all_eq_true]
  simp only [Option.isNone_iff_eq_none]

theorem outline?_eq (read : ofLine settings line = .ok reading) :
    reading.outline? = outlineOf? settings line := by
  rw [outlineOf?, read]
  rfl

end Reading

namespace Replay

variable {settings : Settings} {lines : List (List Char)} {replay : Replay}

theorem Numbered.map_seq (h : replay.Numbered) :
    replay.events.toList.map (·.seq) =
      (List.range replay.events.size).map fun i : Nat => (i : Int) + 1 := by
  apply List.ext_getElem
  · simp
  · intro i inside _
    have here : i < replay.events.size := by simpa using inside
    simpa using h i _ (Array.getElem?_eq_getElem here)

theorem linesSkipped_of_run (h : run settings lines = .ok replay) :
    replay.linesSkipped = lines.countP isIgnored := by
  obtain ⟨readings, read, rfl⟩ := readings_of_run settings h
  rw [linesSkipped_readAll, Nat.zero_add]
  exact countP_of_mapM_ok (fun _ _ => Reading.isSkip_eq) read

theorem outlines_of_run (h : run settings lines = .ok replay) :
    replay.events.toList.map Event.outline = lines.filterMap (outlineOf? settings) := by
  obtain ⟨readings, read, rfl⟩ := readings_of_run settings h
  rw [nested_empty.outlines_readAll, ← filterMap_of_mapM_ok (fun _ _ => Reading.outline?_eq) read]
  rfl

theorem length_of_run (h : run settings lines = .ok replay) :
    replay.linesRead = lines.length ∧
      replay.linesSkipped + replay.events.size + lines.countP isExit = lines.length := by
  obtain ⟨readings, read, rfl⟩ := readings_of_run settings h
  have counted : readings.length = lines.length := length_of_mapM_ok read
  have exits : readings.countP Reading.isLeave = lines.countP isExit :=
    countP_of_mapM_ok (fun _ _ => Reading.isLeave_eq) read
  constructor
  · rw [linesRead_readAll, counted, Nat.zero_add]
  · rw [linesSkipped_readAll, size_events_readAll, ← exits, ← counted, ← Reading.countP_kinds,
      Nat.zero_add]

/-- A run counts every line once: as skipped, as an event or as an exit. The events have the numbers
from one on, in the order of the lines that give them. No text has two forms, so in the body of a
line the same form is found in whatever order the forms are tried. -/
theorem run_accounts (h : run settings lines = .ok replay) :
    replay.linesRead = lines.length ∧
      replay.linesRead = replay.linesSkipped + replay.events.size + lines.countP isExit ∧
      replay.linesSkipped = lines.countP isIgnored ∧
      replay.events.toList.map (·.seq) =
        (List.range replay.events.size).map (fun i : Nat => (i : Int) + 1) ∧
      replay.events.toList.map Event.outline = lines.filterMap (outlineOf? settings) ∧
      (∀ text form form', Spelled form text → Spelled form' text → form = form') ∧
      ∀ line body, body? line = some body →
        (∀ form, Body.read? body = some form ↔ Spelled form body) ∧
          ∀ forms : List (List Char → Option Body), forms.Perm Body.forms →
            forms.findSome? (· body) = Body.read? body := by
  obtain ⟨count, split⟩ := length_of_run h
  refine ⟨count, count.trans split.symm, linesSkipped_of_run h, (numbered_of_run h).map_seq,
    outlines_of_run h, fun text form form' => Spelled.unique, fun line body found => ?_⟩
  have oneLine := oneLine_of_body? found
  exact ⟨fun form => read?_eq_some_iff oneLine, fun forms => findSome?_forms oneLine⟩

theorem run_accounts_tagged :
    let lines := ["# tracer: function_graph".toList, "0)   |  f [m();]() \x7b".toList,
      "0) 0.3 us |    g();".toList, "0) 2.0 us |  \x7d /* f */".toList]
    ∃ replay, run {} lines = .ok replay ∧ replay.linesRead = 4 ∧ replay.linesSkipped = 1 ∧
      replay.events.size = 2 ∧ lines.countP isExit = 1 ∧
      replay.events.toList.map (·.seq) = [1, 2] := by
  intro lines
  have finishes : (run {} lines).map (fun _ => ()) = .ok () := by rfl
  obtain ⟨replay, runs, -⟩ := of_map_ok finishes
  obtain ⟨count, split, skipped, numbers, -⟩ := run_accounts runs
  have exits : lines.countP isExit = 1 := by decide +kernel
  have ignored : lines.countP isIgnored = 1 := by decide +kernel
  have counted : replay.linesRead = 4 := count
  have events : replay.events.size = 2 := by omega
  refine ⟨replay, runs, counted, skipped.trans ignored, events, exits, ?_⟩
  rw [numbers, events]
  rfl

end Replay

end CallTimeline.Trace
