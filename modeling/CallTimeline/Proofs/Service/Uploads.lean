import CallTimeline.Proofs.FileTree.Removing
import CallTimeline.Proofs.Service.Requests
import CallTimeline.Proofs.Text.Lines
import CallTimeline.Proofs.Text.Utf8
import CallTimeline.Proofs.Trace.Faults
import CallTimeline.Proofs.Workflow.TraceFile

/-!
# Uploads

A trace that is sent is stored, read and removed again (`file_afterUpload_iff`). It stays if reading it
fails, which is when a line has a cpu number with too many digits, or if a link has its name
(`LeftAt`). So what is in the folder after any requests was there before or is an upload of this kind
(`file_afterUploads`).
-/

namespace CallTimeline

open Trace

namespace Workflow

variable {session : Session} {path : String} {bytes : List UInt8}

theorem result_timelineOfFile (settings : Settings) (file : session.tree.read path = .ok bytes) :
    ∃ output,
      ((∀ line ∈ linesOf bytes, ¬ Overlong line) ∧ ∃ timeline,
        (timelineOfFile settings path).result session = (.ok timeline, { session with output })) ∨
      ((∃ line ∈ linesOf bytes, Overlong line) ∧ ∃ fault,
        (timelineOfFile settings path).result session = (.error fault, { session with output })) := by
  obtain ⟨output, reads⟩ := (leaves_timelineOfFile settings path session).result
  rw [fileTimeline, file, ok_bind] at reads
  refine ⟨output, ?_⟩
  by_cases long : ∃ line ∈ linesOf bytes, Overlong line
  · obtain ⟨before, line, after, digits, lines, early, found, tooLong⟩ :=
      Replay.exists_first_overlong long
    rw [lines, Replay.run_of_overlong settings early found tooLong] at reads
    exact .inr ⟨long, _, reads⟩
  · push Not at long
    obtain ⟨replay, run⟩ := Replay.run_of_short settings long
    rw [run] at reads
    exact .inl ⟨long, _, reads⟩

end Workflow

namespace Service

def upload? : Content → Option (String × List UInt8)
  | .form _ (some (name, bytes)) =>
    match Upload.sent? name with
    | some name => if name.isEmpty || !Upload.isTrace name then none else some (name, bytes)
    | none => none
  | _ => none

/-- A request has its trace stored at a place. -/
def StoredAt (site : Site) (tree : FileTree) (content : Content) (place : List String) : Prop :=
  ∃ name bytes, upload? content = some (name, bytes) ∧ tree.Takes (uploadPath site name) place

/-- A request leaves its trace at a place: a line has a cpu number that is too long, or the trace is
stored through a link. -/
def LeftAt (site : Site) (tree : FileTree) (content : Content) (place : List String)
    (bytes : List UInt8) : Prop :=
  ∃ name, upload? content = some (name, bytes) ∧ tree.Takes (uploadPath site name) place ∧
    ((∃ line ∈ Workflow.linesOf bytes, Overlong line) ∨ ¬ tree.Names (uploadPath site name) place)

variable {site : Site} {session : Session} {bytes : List UInt8}

section

variable {name : String} (release : String)

theorem result_timelineOfUpload_error
    (full : ∀ place, ¬ session.tree.Takes (uploadPath site name) place) :
    ∃ fault, (timelineOfUpload site name release bytes).result session = (.error fault, session) := by
  cases stores : session.tree.write (uploadPath site name) bytes with
  | error fault =>
      refine ⟨fault, ?_⟩
      rw [timelineOfUpload, Work.result_bind, Work.result_store_error stores]
  | ok tree =>
      obtain ⟨place, takes, -⟩ := FileTree.write_eq_ok.mp stores
      exact absurd takes (full place)

theorem tree_timelineOfUpload {place : List String}
    (takes : session.tree.Takes (uploadPath site name) place) :
    let stored := session.tree.withFile place bytes
    let after := ((timelineOfUpload site name release bytes).result session).2.tree
    ((∃ line ∈ Workflow.linesOf bytes, Overlong line) ∧ after = stored) ∨
      ((∀ line ∈ Workflow.linesOf bytes, ¬ Overlong line) ∧
        ∀ tree, stored.remove (uploadPath site name) = .ok tree → after = tree) := by
  intro stored after
  have stores : session.tree.write (uploadPath site name) bytes = .ok stored :=
    takes.write bytes
  let between : Session := { session with tree := stored }
  have reads : between.tree.read _ = .ok bytes := FileTree.read_of_write stores
  obtain ⟨output, ⟨short, timeline, parses⟩ | ⟨long, fault, fails⟩⟩ :=
    Workflow.result_timelineOfFile {} reads
  · refine .inr ⟨short, fun tree removes => ?_⟩
    obtain ⟨output', prints⟩ := Workflow.prints_printReport timeline { between with output }
    have removes : ({ between with output := output' } : Session).tree.remove _ = .ok tree := removes
    change ((timelineOfUpload site name release bytes).result session).2.tree = tree
    rw [timelineOfUpload, Work.result_bind, Work.result_store stores]
    dsimp only
    rw [Work.result_bind, parses]
    dsimp only
    rw [Work.result_bind, prints]
    dsimp only
    rw [Work.result_bind, Work.result_discard removes]
    rfl
  · refine .inl ⟨long, ?_⟩
    change ((timelineOfUpload site name release bytes).result session).2.tree = stored
    rw [timelineOfUpload, Work.result_bind, Work.result_store stores]
    dsimp only
    rw [Work.result_bind, fails]

theorem file_timelineOfUpload {place : List String}
    (takes : session.tree.Takes (uploadPath site name) place)
    (other : List String) (old : List UInt8) :
    ((timelineOfUpload site name release bytes).result session).2.tree.HasFile other old ↔
      if other = place then
        ((∃ line ∈ Workflow.linesOf bytes, Overlong line) ∨
          ¬ session.tree.Names (uploadPath site name) place) ∧ old = bytes
      else session.tree.HasFile other old := by
  obtain ⟨long, after⟩ | ⟨short, after⟩ := @tree_timelineOfUpload site session bytes name release _ takes
  · rw [after]
    split
    case isTrue same =>
      subst same
      rw [and_iff_right (.inl long)]
      exact ⟨fun file => file.unique (takes.hasFile bytes), fun same => same ▸ takes.hasFile bytes⟩
    case isFalse ne => exact (takes.fileWritten bytes).file_iff ne
  · obtain ⟨root, removes, kept⟩ := FileTree.remove_of_write takes bytes
    have none : ¬ ∃ line ∈ Workflow.linesOf bytes, Overlong line := by
      push Not
      exact short
    rw [after _ removes, kept, or_iff_right none]

end

theorem result_timeline_of_none {content : Content} (refused : upload? content = none) :
    ∃ given, (timeline site content).result session = (.ok given, session) := by
  cases content with
  | nothing | bytes => exact ⟨_, rfl⟩
  | form fields file =>
      cases file with
      | none => exact ⟨_, rfl⟩
      | some upload =>
          rw [upload?] at refused
          unfold timeline
          split at refused
          case h_1 name sent =>
            simp only [sent]
            split at refused
            case isTrue unfit =>
              by_cases empty : name.isEmpty = true
              · exact ⟨_, by rw [if_pos empty]; rfl⟩
              · have noTrace : (!Upload.isTrace name) = true := by simpa [empty] using unfit
                exact ⟨_, by rw [if_neg empty, if_pos noTrace]; rfl⟩
            case isFalse => cases refused
          case h_2 none =>
            simp only [none]
            exact ⟨_, rfl⟩

theorem result_timeline_of_some {content : Content} {name : String}
    (accepted : upload? content = some (name, bytes)) :
    ∃ release, ((timeline site content).result session).2 =
      ((timelineOfUpload site name release bytes).result session).2 := by
  unfold upload? at accepted
  unfold timeline
  split at accepted
  case h_1 fields name bytes =>
    split at accepted
    case h_1 name sent =>
      split at accepted
      case isTrue => cases accepted
      case isFalse fit =>
        cases accepted
        simp only [Bool.or_eq_true, not_or, Bool.not_eq_true'] at fit
        obtain ⟨some, trace⟩ := fit
        refine ⟨(fields.lookup "kernel_version").getD "unknown", ?_⟩
        simp only [sent]
        rw [if_neg some, if_neg (by simpa using trace), Work.result_tryCatch]
        obtain ⟨_ | given, after⟩ := (timelineOfUpload site _ _ _).result session <;> rfl
    case h_2 => cases accepted
  case h_2 => cases accepted

def afterUpload (site : Site) (session : Session) (content : Content) : Session :=
  ((answer site { method := "POST", path := "/api/timeline", content }).result session).2

def afterUploads (site : Site) (session : Session) (contents : List Content) : Session :=
  contents.foldl (afterUpload site) session

theorem outcome_answer_timeline (content : Content) :
    (answer site { method := "POST", path := "/api/timeline", content }).outcome session =
      .ok (answerOf ((timeline site content).outcome session)) :=
  congrArg Prod.fst (@result_answer "/api/timeline" timeline (by decide) rfl site content session)

theorem afterUpload_eq (content : Content) :
    afterUpload site session content = ((timeline site content).result session).2 := by
  rw [afterUpload, @result_answer "/api/timeline" timeline (by decide) rfl site content session]

theorem file_afterUpload_iff (content : Content) (place : List String) (old : List UInt8) :
    (afterUpload site session content).tree.HasFile place old ↔
      LeftAt site session.tree content place old ∨
        ¬ StoredAt site session.tree content place ∧ session.tree.HasFile place old := by
  rw [afterUpload_eq]
  cases accepted : upload? content with
  | none =>
      obtain ⟨given, refuses⟩ := @result_timeline_of_none site session content accepted
      simp [refuses, LeftAt, StoredAt, accepted]
  | some found =>
      obtain ⟨name, bytes⟩ := found
      obtain ⟨release, same⟩ := @result_timeline_of_some site session _ _ _ accepted
      rw [same]
      have left_iff : LeftAt site session.tree content place old ↔
          session.tree.Takes (uploadPath site name) place ∧
            ((∃ line ∈ Workflow.linesOf bytes, Overlong line) ∨
              ¬ session.tree.Names (uploadPath site name) place) ∧ old = bytes := by
        simp only [LeftAt, accepted, Option.some.injEq, Prod.mk.injEq]
        constructor
        · rintro ⟨_, ⟨rfl, rfl⟩, takes, stays⟩
          exact ⟨takes, stays, rfl⟩
        · rintro ⟨takes, stays, rfl⟩
          exact ⟨name, ⟨rfl, rfl⟩, takes, stays⟩
      have stored_iff : StoredAt site session.tree content place ↔
          session.tree.Takes (uploadPath site name) place := by
        simp [StoredAt, accepted]
      rw [left_iff, stored_iff]
      -- The trace is stored at one place, if at all; other places keep what they have.
      by_cases stored : ∃ there, session.tree.Takes (uploadPath site name) there
      · obtain ⟨there, takes⟩ := stored
        rw [file_timelineOfUpload release takes]
        by_cases here : place = there
        · subst here
          simp [takes]
        · have apart : ¬ session.tree.Takes (uploadPath site name) place := fun takes' =>
            here (takes'.unique takes)
          simp [here, apart]
      · push Not at stored
        obtain ⟨fault, fails⟩ := @result_timelineOfUpload_error site session bytes name release stored
        rw [fails]
        simp [stored place]

theorem file_afterUploads (contents : List Content) {place : List String} {old : List UInt8}
    (file : (afterUploads site session contents).tree.HasFile place old) :
    session.tree.HasFile place old ∨
      ∃ before content later, contents = before ++ content :: later ∧
        LeftAt site (afterUploads site session before).tree content place old := by
  induction contents generalizing session with
  | nil => exact .inl file
  | cons content contents ih =>
      obtain there | ⟨before, other, later, rfl, left⟩ := ih file
      · obtain left | ⟨-, kept⟩ := (file_afterUpload_iff content place old).mp there
        · exact .inr ⟨[], content, contents, rfl, left⟩
        · exact .inl kept
      · exact .inr ⟨content :: before, other, later, rfl, left⟩

/-- Every request for a timeline is answered. The files are then those from before, unless a trace
was stored in their place, and the traces that are left; so what is there after any requests was
there before them or has been left by one of them. -/
theorem afterUploads_files (site : Site) (session : Session) (contents : List Content) :
    (∀ before content later, contents = before ++ content :: later →
      let reached := afterUploads site session before
      (∃ given, (answer site { method := "POST", path := "/api/timeline", content }).outcome
        reached = .ok given) ∧
      ∀ place bytes,
        (afterUpload site reached content).tree.HasFile place bytes ↔
          LeftAt site reached.tree content place bytes ∨
            ¬ StoredAt site reached.tree content place ∧ reached.tree.HasFile place bytes) ∧
    ∀ place bytes,
      (afterUploads site session contents).tree.HasFile place bytes →
        session.tree.HasFile place bytes ∨
          ∃ before content later, contents = before ++ content :: later ∧
            LeftAt site (afterUploads site session before).tree content place bytes := by
  refine ⟨fun before content later _ => ⟨⟨_, outcome_answer_timeline content⟩,
    file_afterUpload_iff content⟩, fun place bytes => file_afterUploads contents⟩

def uploadSite : Site where
  sourceRoot := ""
  uploads := "up"

def uploadSession : Session where
  host := { now := "", stamp := "", elapsed := "", release := "", processors := 1 }
  tree := { root := .dir [("up", .dir [])], workingDirectory := [] }

def longTrace : List UInt8 :=
  Text.Utf8.encode (String.ofList (Replay.longLine 4301))

theorem linesOf_longTrace : Workflow.linesOf longTrace = [Replay.longLine 4301] := by
  have letters (c : Char) (member : c ∈ Replay.longLine 4301) : c = '9' ∨ c ∈ ")   |f();".toList :=
    (List.mem_append.mp member).imp List.eq_of_mem_replicate id
  have clean : '\r' ∉ Replay.longLine 4301 := fun member => by simpa using letters _ member
  have oneLine : ∀ c ∈ Replay.longLine 4301, (c == '\n') = false := by
    intro c member
    refine beq_eq_false_iff_ne.mpr ?_
    rintro rfl
    simpa using letters _ member
  rw [Workflow.linesOf, longTrace, Text.Utf8.decodeReplacing_encode, String.toList_ofList,
    Text.unifyLineEnds_of_not_mem clean]
  exact Text.cutLines_of_open (List.append_ne_nil_of_right_ne_nil _ (List.cons_ne_nil _ _)) oneLine

theorem upload?_log (fields : List (String × String)) (bytes : List UInt8) :
    upload? (.form fields (some ("t.log", bytes))) = some ("t.log", bytes) := by
  have sent : Upload.sent? "t.log" = some "t.log" := by decide +kernel
  have fit : ("t.log".isEmpty || !Upload.isTrace "t.log") = false := by decide +kernel
  simp only [upload?, sent, fit, Bool.false_eq_true, if_false]

theorem longTrace_stays :
    let content : Content := .form [] (some ("t.log", longTrace))
    uploadSession.tree.root.at? ["up", "t.log"] = none ∧
    (∃ given, (answer uploadSite { method := "POST", path := "/api/timeline", content }).outcome
      uploadSession = .ok given) ∧
    (afterUpload uploadSite uploadSession content).tree.HasFile ["up", "t.log"] longTrace := by
  intro content
  have path : uploadPath uploadSite "t.log" = "up/t.log" := by decide +kernel
  have segments : Path.segments "up/t.log" = ["up", "t.log"] := by decide +kernel
  have located : uploadSession.tree.locate true "up/t.log" = .ok (.free ["up"] "t.log") := by
    refine FileTree.locate_eq_ok.mpr ⟨⟨by cbv, by decide, by decide⟩, ?_⟩
    rw [segments]
    exact (FileTree.follow_below rfl (by decide) (by decide) (by decide) rfl (by simp)).trans
      (FileTree.follow_free rfl (by decide) (by decide) (by decide) rfl)
  have overlong : Overlong (Replay.longLine 4301) := Replay.overlong_longLine (by decide)
  refine ⟨rfl, ⟨_, outcome_answer_timeline content⟩, (file_afterUpload_iff content ..).mpr (.inl ?_)⟩
  refine ⟨"t.log", upload?_log [] longTrace, ?_, .inl ⟨_, ?_, overlong⟩⟩
  · rw [path]
    exact ⟨_, located, rfl, trivial⟩
  · rw [linesOf_longTrace]
    exact List.mem_singleton.mpr rfl

end Service

end CallTimeline
