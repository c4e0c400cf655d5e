import CallTimeline.Proofs.Session
import CallTimeline.Proofs.Timeline.Entries
import CallTimeline.Workflow.Build

namespace CallTimeline

open Trace

theorem Trace.Replay.foldlM_step (settings : Settings) (lines : List (List Char)) (replay : Replay) :
    lines.foldlM (step settings) replay =
      match runUntilFault settings replay lines with
      | (after, none) => .ok after
      | (_, some fault) => .error fault := by
  induction lines generalizing replay with
  | nil => rfl
  | cons line rest ih =>
      rw [List.foldlM_cons, runUntilFault]
      cases replay.step settings line with
      | error fault => rfl
      | ok next => exact ih next

theorem Timeline.hasData_ofReplay (settings : Settings) (replay : Replay) :
    (Timeline.ofReplay settings replay).hasData = true ↔ replay.events ≠ #[] := by
  have lengths : ((Timeline.ofReplay settings replay).entries.map fun _ => ()).length =
      replay.events.size := by
    rw [ofReplay, ofEvents,
      @map_entriesFrom settings Unit (fun _ => ()) (fun _ => ()) fun _ _ _ => rfl]
    simp
  rw [List.length_map] at lengths
  rw [hasData, Bool.not_eq_true', List.isEmpty_eq_false_iff, Ne, ← List.length_eq_zero_iff, lengths,
    Array.size_eq_zero_iff]

namespace Workflow

def fileTimeline (settings : Settings) (tree : FileTree) (path : String) : Except Fault Timeline := do
  let replay ← Replay.run settings (linesOf (← tree.read path))
  return Timeline.ofReplay settings replay

theorem exists_fileTimeline_iff {settings : Settings} {tree : FileTree} {path : String}
    {property : Timeline → Prop} :
    (∃ timeline, fileTimeline settings tree path = .ok timeline ∧ property timeline) ↔
      ∃ bytes replay, tree.read path = .ok bytes ∧
        Replay.run settings (linesOf bytes) = .ok replay ∧
        property (Timeline.ofReplay settings replay) := by
  rw [fileTimeline]
  constructor
  · rintro ⟨timeline, known, holds⟩
    obtain ⟨bytes, file, known⟩ := of_bind_ok known
    obtain ⟨replay, run, known⟩ := of_bind_ok known
    cases known
    exact ⟨bytes, replay, file, run, holds⟩
  · rintro ⟨bytes, replay, file, run, holds⟩
    exact ⟨_, by rw [file, ok_bind, run]; rfl, holds⟩

theorem prints_reportProgress (count : Nat) : (reportProgress count).Prints () :=
  Work.prints_forM fun _ _ => Work.prints_print _

theorem prints_printReport (timeline : Timeline) : (printReport timeline).Prints () :=
  Work.prints_forM fun _ _ => Work.prints_print _

theorem result_traceLines (path : String) (session : Session) :
    (traceLines path).result session = ((session.tree.read path).map linesOf, session) := by
  change (liftM (session.tree.read path) >>= fun bytes => pure (linesOf bytes) :
    Work (List (List Char))).result session = _
  rw [Work.result_lift_bind]
  cases session.tree.read path <;> rfl

theorem leaves_timelineOfFile (settings : Settings) (path : String) (session : Session) :
    (timelineOfFile settings path).Leaves session (fileTimeline settings session.tree path)
      session.tree := by
  refine (Work.prints_print _).leaves_bind ?_
  have reads : (traceLines path).Leaves session ((session.tree.read path).map linesOf)
      session.tree := Work.leaves_of_result fun _ => result_traceLines path _
  rw [fileTimeline]
  cases file : session.tree.read path with
  | error fault =>
      rw [file] at reads
      exact reads.bind_error _
  | ok bytes =>
      rw [file] at reads
      rw [ok_bind, Replay.run, Replay.foldlM_step]
      refine reads.bind ?_
      obtain ⟨replay, _ | fault⟩ := Replay.runUntilFault settings {} (linesOf bytes)
      · exact (prints_reportProgress _).leaves_bind
          ((Work.prints_print _).leaves_bind ((Work.prints_pure _).leaves _))
      · exact (prints_reportProgress _).leaves_bind (Work.leaves_of_result fun _ => rfl)

end Workflow

end CallTimeline
