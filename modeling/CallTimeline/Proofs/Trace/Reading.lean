import CallTimeline.Proofs.Results
import CallTimeline.Trace.Replay
import Mathlib.Data.List.Basic

/-!
# Readings

A replay sees a line only through its reading: a call that is entered, left or made at some depth, or
nothing. Reading a line may fail, taking a reading in cannot:

* `step_eq` splits a step into the two;
* `run_eq` does the same for a whole trace, which makes a run a fold over readings.
-/

namespace CallTimeline.Trace

inductive Reading where
  | enter (columns : Columns) (depth : Nat) (function : String)
  | leave (columns : Columns) (depth : Nat)
  | call (columns : Columns) (depth : Nat) (function : String)
  | skip

namespace Reading

variable (settings : Settings)

def ofColumns (columns : Columns) : Except Fault Reading :=
  let depth := columns.indent / settings.indentWidth
  match Body.read? columns.body with
  | none => .ok .skip
  | some .leave => .ok (.leave columns depth)
  | some (.enter token) => (functionName token).map (.enter columns depth)
  | some (.call token) => (functionName token).map (.call columns depth)

def ofLine (line : List Char) : Except Fault Reading := do
  match ← Columns.ofLine line with
  | none => return .skip
  | some columns => ofColumns settings columns

theorem ofColumns_cases {columns : Columns} {reading : Reading}
    (read : ofColumns settings columns = .ok reading) :
    Body.read? columns.body = none ∧ reading = .skip ∨
      Body.read? columns.body = some .leave ∧
        reading = .leave columns (columns.indent / settings.indentWidth) ∨
      ∃ token function, functionName token = .ok function ∧
        (Body.read? columns.body = some (.enter token) ∧
            reading = .enter columns (columns.indent / settings.indentWidth) function ∨
          Body.read? columns.body = some (.call token) ∧
            reading = .call columns (columns.indent / settings.indentWidth) function) := by
  unfold ofColumns at read
  dsimp only at read
  split at read
  case h_1 none_ =>
    cases read
    exact .inl ⟨none_, rfl⟩
  case h_2 leaves =>
    cases read
    exact .inr (.inl ⟨leaves, rfl⟩)
  case h_3 token enters =>
    obtain ⟨function, name, rfl⟩ := of_map_ok read
    exact .inr (.inr ⟨token, function, name, .inl ⟨enters, rfl⟩⟩)
  case h_4 token calls =>
    obtain ⟨function, name, rfl⟩ := of_map_ok read
    exact .inr (.inr ⟨token, function, name, .inr ⟨calls, rfl⟩⟩)

theorem ofLine_of_columns {line : List Char} {columns : Columns}
    (h : Columns.ofLine line = .ok (some columns)) :
    ofLine settings line = ofColumns settings columns := by
  rw [ofLine, h]
  rfl

end Reading

namespace Replay

variable (settings : Settings)

def read (replay : Replay) (reading : Reading) : Replay :=
  let replay := { replay with linesRead := replay.linesRead + 1 }
  match reading with
  | .enter columns depth function => replay.enter settings columns function depth
  | .leave columns depth => replay.leave columns depth
  | .call columns depth function => replay.call settings columns function depth
  | .skip => replay.skip

def readAll (replay : Replay) (readings : List Reading) : Replay :=
  readings.foldl (read settings) replay

@[simp] theorem readAll_nil (replay : Replay) : replay.readAll settings [] = replay := rfl

@[simp] theorem readAll_cons (replay : Replay) (reading : Reading) (rest : List Reading) :
    replay.readAll settings (reading :: rest) =
      (replay.read settings reading).readAll settings rest := rfl

theorem readAll_append (replay : Replay) (xs ys : List Reading) :
    replay.readAll settings (xs ++ ys) = (replay.readAll settings xs).readAll settings ys :=
  List.foldl_append

theorem step_eq (replay : Replay) (line : List Char) :
    replay.step settings line = (Reading.ofLine settings line).map (replay.read settings) := by
  unfold step Reading.ofLine
  cases Columns.ofLine line with
  | error fault => rfl
  | ok columns =>
      cases columns with
      | none => rfl
      | some columns =>
          simp only [bind, Except.bind, apply, Reading.ofColumns]
          cases Body.read? columns.body with
          | none => rfl
          | some body =>
              cases body with
              | leave => rfl
              | enter token =>
                  dsimp only
                  cases functionName token <;> rfl
              | call token =>
                  dsimp only
                  cases functionName token <;> rfl

theorem foldlM_step_eq (replay : Replay) (lines : List (List Char)) :
    lines.foldlM (step settings) replay =
      (lines.mapM (Reading.ofLine settings)).map (replay.readAll settings) := by
  induction lines generalizing replay with
  | nil => rfl
  | cons line rest ih =>
      rw [List.foldlM_cons, List.mapM_cons, step_eq]
      cases Reading.ofLine settings line with
      | error fault => rfl
      | ok reading =>
          simp only [Except.map, bind, Except.bind, ih]
          cases rest.mapM (Reading.ofLine settings) <;> rfl

theorem run_eq (lines : List (List Char)) :
    run settings lines = (lines.mapM (Reading.ofLine settings)).map (readAll settings {}) :=
  foldlM_step_eq settings {} lines

theorem run_of_readings {lines : List (List Char)} {readings : List Reading}
    (h : lines.mapM (Reading.ofLine settings) = .ok readings) :
    run settings lines = .ok (readAll settings {} readings) := by
  rw [run_eq, h]
  rfl

theorem readings_of_run {lines : List (List Char)} {replay : Replay}
    (h : run settings lines = .ok replay) :
    ∃ readings, lines.mapM (Reading.ofLine settings) = .ok readings ∧
      readAll settings {} readings = replay := by
  rw [run_eq] at h
  exact of_map_ok h

end Replay

end CallTimeline.Trace
