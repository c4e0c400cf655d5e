import CallTimeline.Proofs.Service.Answer
import CallTimeline.Proofs.Service.Records

/-!
# Answers and pages

The handlers that resolve and merge check some of what a body may hold. Where a check or a refusal
covers the request, the answer is JSON; for the others there is no answer but the page of a fault.
The requests of the second kind are listed for each handler (`UnforeseenFunctions`,
`UnforeseenMerge`), and the lists are complete (`answer_json_or_page`).
-/

namespace CallTimeline.Service

open Source Json

/-! ## Bodies -/

def UnforeseenBody (content : Content) : Prop :=
  (payload content).isTruthy = true ∧ ∀ fields, payload content ≠ .obj fields

theorem unforeseenBody_iff {content : Content} :
    UnforeseenBody content ↔ ∃ fault, payloadFields content = .error fault := by
  rw [payloadFields, UnforeseenBody]
  cases (payload content).isTruthy with
  | false => simp
  | true => cases payload content <;> simp [Json.fields]

/-! ## Answers -/

def Answer.IsJson (given : Answer) : Prop :=
  given.status = 200 ∧ (∃ fields, given.body = some (.obj fields)) ∨
    (given.status = 400 ∨ given.status = 500) ∧
      ∃ text, given.body = some (.obj [("error", .str text)])

theorem isJson_success (fields : Fields) : (success (.obj fields)).IsJson :=
  .inl ⟨rfl, fields, rfl⟩

theorem isJson_refuse (text : String) : (refuse 400 text).IsJson :=
  .inr ⟨.inl rfl, text, rfl⟩

theorem not_isJson_page (status : Nat) : ¬ (page status).IsJson := by
  rintro (⟨-, fields, body⟩ | ⟨-, text, body⟩) <;> cases body

def Foresees (unforeseen : Prop) (outcome : Except Fault Answer) : Prop :=
  (answerOf outcome).IsJson ∧ ¬ unforeseen ∨ answerOf outcome = page 500 ∧ unforeseen

theorem foresees_ok {unforeseen : Prop} {given : Answer} (json : given.IsJson)
    (expected : ¬ unforeseen) : Foresees unforeseen (.ok given) :=
  .inl ⟨json, expected⟩

theorem foresees_error {unforeseen : Prop} (fault : Fault) (holds : unforeseen) :
    Foresees unforeseen (.error fault) :=
  .inr ⟨rfl, holds⟩

/-! ## Functions -/

inductive UnforeseenFunctions (site : Site) (session : Session) (content : Content) : Prop where
  | body (unforeseen : UnforeseenBody content)
  | timeout (fields : Fields) (names : List Json) (seconds : Int)
      (asks : AsksSearch site session content fields names)
      (timeout : fields.get? "timeout" = some (.int seconds))
      (endless : Double.isFinite (Double.ofInt seconds) = false)

theorem isText_eq_true {value : Json} : isText value = true ↔ value.IsText := by
  cases value <;> simp [isText, IsText]

theorem seconds_cases (value : Json) :
    (∃ fault, seconds value = .error fault) ∧
        (∃ whole, value = .int whole ∧ Double.isFinite (Double.ofInt whole) = false) ∨
      (∃ timeout, seconds value = .ok timeout) ∧
        ∀ whole, value = .int whole → Double.isFinite (Double.ofInt whole) = true := by
  cases value with
  | int whole =>
      cases finite : Double.isFinite (Double.ofInt whole) with
      | false =>
          have beyond : seconds (.int whole) = .error .integerAsReal := by
            simp [seconds, toReal, realOfInt, finite]
          exact .inl ⟨⟨_, beyond⟩, whole, rfl, finite⟩
      | true =>
          have known : seconds (.int whole) = .ok (some (Double.ofInt whole)) := by
            simp [seconds, toReal, realOfInt, finite]
          exact .inr ⟨⟨_, known⟩, by rintro _ ⟨⟩; exact finite⟩
  | str text =>
      have known : ∃ timeout, seconds (.str text) = .ok timeout := by
        rw [seconds, toReal]
        cases Number.real? text.toList <;> exact ⟨_, rfl⟩
      exact .inr ⟨known, by rintro _ ⟨⟩⟩
  | _ => exact .inr ⟨⟨_, rfl⟩, by rintro _ ⟨⟩⟩

theorem timeout_eq_int {fields : Fields} {whole : Int} :
    (fields.get? "timeout").getD (.real defaultTimeout) = .int whole ↔
      fields.get? "timeout" = some (.int whole) := by
  cases fields.get? "timeout" <;> simp

section

variable {site : Site} {session : Session} {content : Content} {fields : Fields}

theorem not_unforeseenBody (decoded : payloadFields content = .ok fields) :
    ¬ UnforeseenBody content := by
  intro unforeseen
  obtain ⟨fault, failed⟩ := unforeseenBody_iff.mp unforeseen
  cases decoded.symm.trans failed

theorem foresees_of_finite (decoded : payloadFields content = .ok fields) {given : Answer}
    (json : given.IsJson)
    (finite : ∀ names whole, AsksSearch site session content fields names →
      fields.get? "timeout" = some (.int whole) → Double.isFinite (Double.ofInt whole) = true) :
    Foresees (UnforeseenFunctions site session content) (.ok given) := by
  refine foresees_ok json ?_
  rintro (unforeseen | ⟨_, names, whole, asks, timeout, endless⟩)
  · exact not_unforeseenBody decoded unforeseen
  · cases decoded.symm.trans asks.decoded
    exact absurd (finite names whole asks timeout) (Bool.eq_false_iff.mp endless)

theorem AsksSearch.foresees {names : List Json}
    (asks : AsksSearch site session content fields names) :
    Foresees (UnforeseenFunctions site session content)
      ((Service.resolve site content).outcome session) := by
  have textual : ∀ name ∈ names, name.IsText := fun name member =>
    isText_eq_true.mp (List.all_eq_true.mp asks.text name member)
  obtain ⟨texts, rfl⟩ := exists_texts textual
  obtain ⟨⟨fault, beyond⟩, whole, timeout, endless⟩ | ⟨⟨timeout, known⟩, finite⟩ :=
    seconds_cases ((fields.get? "timeout").getD (.real defaultTimeout))
  · rw [asks.outcome_resolve, beyond]
    exact foresees_error fault
      (.timeout fields _ whole asks (timeout_eq_int.mp timeout) endless)
  · have foresees {given : Answer} (json : given.IsJson) :
        Foresees (UnforeseenFunctions site session content) (.ok given) :=
      foresees_of_finite asks.decoded json fun _ whole _ timeout =>
        finite whole (timeout_eq_int.mpr timeout)
    cases timeout with
    | none =>
        rw [asks.outcome_resolve, known]
        exact foresees (isJson_refuse _)
    | some timeout =>
        by_cases negative : timeout < 0.0
        · rw [asks.outcome_resolve, known, ok_bind]
          dsimp only
          rw [if_pos negative]
          exact foresees (isJson_refuse _)
        · obtain ⟨database, -, resolution, found⟩ := outcome_resolve_database asks known negative
          rw [found]
          exact foresees (isJson_success _)

end

theorem foresees_resolve (site : Site) (session : Session) (content : Content) :
    Foresees (UnforeseenFunctions site session content)
      ((Service.resolve site content).outcome session) := by
  obtain ⟨fault, failed, outcome⟩ | ⟨fields, decoded, ⟨names, asks⟩ | ⟨other, text, outcome⟩⟩ :=
    resolve_cases site session content
  · rw [outcome]
    exact foresees_error fault (.body (unforeseenBody_iff.mpr ⟨fault, failed⟩))
  · exact asks.foresees
  · rw [outcome]
    exact foresees_of_finite decoded (isJson_refuse text) fun names _ asks _ =>
      absurd asks (other names)

/-! ## Entries -/

/-- What can be merged and put in order for the answer: the names can be looked up, the stack holds
objects, and source information that is located is a table with text for keys. -/
structure Mergeable (locations : Locations) (entry : Fields) : Prop where
  name : (Merge.nameOf entry).checkName = .ok ()
  source : (locations.find? (Merge.nameOf entry)).isSome → ∀ info,
    entry.get? "source_info" = some info → info.hasTextKeys = true ∧ ∃ own, info.table = .ok own
  stack : ∀ stack, entry.get? "call_stack" = some stack → ∃ frames, stack.parts = .ok frames ∧
    ∀ frame ∈ frames, ∃ fields, frame = .obj fields ∧
      (Merge.frameName fields).checkName = .ok ()

theorem exists_ownLevel {location : Option Location} {entry : Fields} :
    (∃ own, Merge.ownLevel location entry = .ok own) ↔
      (location.isSome → ∀ info, entry.get? "source_info" = some info →
        ∃ own, info.table = .ok own) := by
  rw [Merge.ownLevel]
  cases entry.get? "source_info" with
  | none => simp
  | some info =>
      cases location with
      | none => simp
      | some location => simp [map_eq_ok]

theorem exists_frames {locations : Locations} {stack : Json} :
    (∃ located, Merge.frames locations stack = .ok located) ↔
      ∃ frames, stack.parts = .ok frames ∧ ∀ frame ∈ frames, ∃ fields, frame = .obj fields ∧
        (Merge.frameName fields).checkName = .ok () := by
  have each (frame : Json) : (∃ merged, Merge.frame locations frame = .ok merged) ↔
      ∃ fields, frame = .obj fields ∧ (Merge.frameName fields).checkName = .ok () := by
    simp only [Merge.frame_eq_ok]
    constructor
    · rintro ⟨_, fields, same, checked, -⟩
      exact ⟨fields, same, checked⟩
    · rintro ⟨fields, same, checked⟩
      exact ⟨_, fields, same, checked, rfl⟩
  calc (∃ located, Merge.frames locations stack = .ok located)
      ↔ ∃ frames, stack.parts = .ok frames ∧
          ∃ items, frames.mapM (Merge.frame locations) = .ok items := by
        simp only [Merge.frames_eq_ok]
        constructor
        · rintro ⟨_, frames, listed, items, traversed, -⟩
          exact ⟨frames, listed, items, traversed⟩
        · rintro ⟨frames, listed, items, traversed⟩
          exact ⟨_, frames, listed, items, traversed, rfl⟩
    _ ↔ _ := by
        refine exists_congr fun frames => and_congr_right fun _ => ?_
        rw [exists_mapM_ok]
        exact forall₂_congr fun frame _ => each frame

theorem exists_withFrames {locations : Locations} {own : Fields} :
    (∃ whole, Merge.withFrames locations own = .ok whole) ↔
      ∀ stack, own.get? "call_stack" = some stack →
        ∃ located, Merge.frames locations stack = .ok located := by
  rw [Merge.withFrames]
  cases own.get? "call_stack" with
  | none => simp
  | some stack => simp [map_eq_ok]

theorem isOrdered_obj {locations : Locations} {entry : Fields} :
    isOrdered locations (.obj entry) = true ↔
      ((locations.find? (Merge.nameOf entry)).isSome → ∀ info,
        entry.get? "source_info" = some info → info.hasTextKeys = true) := by
  rw [isOrdered, Fields.get?]
  cases locations.find? (Merge.nameOf entry) <;> cases List.lookup "source_info" entry <;> simp

theorem mergeable_iff {locations : Locations} {entry : Json} :
    (∃ merged, Merge.entry locations entry = .ok merged) ∧ isOrdered locations entry = true ↔
      ∃ fields, entry = .obj fields ∧ Mergeable locations fields := by
  constructor
  · rintro ⟨⟨merged, entry_ok⟩, ordered⟩
    obtain ⟨fields, rfl, checked, own, level_ok, whole, framed, -⟩ := Merge.entry_eq_ok.mp entry_ok
    refine ⟨fields, rfl, checked, fun located info present => ?_, fun stack present => ?_⟩
    · exact ⟨isOrdered_obj.mp ordered located info present,
        exists_ownLevel.mp ⟨own, level_ok⟩ located info present⟩
    · have present := (Merge.ownLevel_stack level_ok).trans present
      exact exists_frames.mp (exists_withFrames.mp ⟨whole, framed⟩ stack present)
  · rintro ⟨fields, rfl, mergeable⟩
    obtain ⟨own, level_ok⟩ : ∃ own, Merge.ownLevel _ fields = .ok own :=
      exists_ownLevel.mpr fun located info present => (mergeable.source located info present).2
    obtain ⟨whole, framed⟩ : ∃ whole, Merge.withFrames locations own = .ok whole := by
      refine exists_withFrames.mpr fun stack present => exists_frames.mpr (mergeable.stack stack ?_)
      exact (Merge.ownLevel_stack level_ok).symm.trans present
    refine ⟨⟨_, Merge.entry_eq_ok.mpr
      ⟨fields, rfl, mergeable.name, own, level_ok, whole, framed, rfl⟩⟩, ?_⟩
    exact isOrdered_obj.mpr fun located info present => (mergeable.source located info present).1

/-! ## Documents -/

def AsksMerge (content : Content) (entries : List Json) (records : Fields) : Prop :=
  ∃ fields document : Fields, payloadFields content = .ok fields ∧
    fields.get? "timeline" = some (.obj document) ∧
    document.get? "timeline" = some (.arr entries) ∧
    fields.get? "locations" = some (.obj records)

theorem AsksMerge.unique {content : Content} {entries entries' : List Json}
    {records records' : Fields} (asks : AsksMerge content entries records)
    (asks' : AsksMerge content entries' records') : entries = entries' ∧ records = records' := by
  obtain ⟨fields, document, decoded, timeline, listed, database⟩ := asks
  obtain ⟨fields', document', decoded', timeline', listed', database'⟩ := asks'
  cases decoded.symm.trans decoded'
  cases timeline.symm.trans timeline'
  cases database.symm.trans database'
  cases listed.symm.trans listed'
  exact ⟨rfl, rfl⟩

theorem merge_cases (session : Session) (content : Content) :
    (∃ fault, payloadFields content = .error fault ∧
      (Service.merge content).outcome session = .error fault) ∨
    (∃ entries records, AsksMerge content entries records) ∨
    (∃ fields, payloadFields content = .ok fields) ∧
      (∀ entries records, ¬ AsksMerge content entries records) ∧
        ∃ text, (Service.merge content).outcome session = .ok (refuse 400 text) := by
  cases decoded : payloadFields content with
  | error fault =>
      refine .inl ⟨fault, rfl, ?_⟩
      unfold Service.merge
      rw [Work.outcome_lift_bind, decoded]
      rfl
  | ok fields =>
      refine .inr ?_
      by_cases merge : ∃ entries records, AsksMerge content entries records
      case pos => exact .inl merge
      refine .inr ⟨⟨fields, rfl⟩, fun entries records asks => merge ⟨entries, records, asks⟩, ?_⟩
      unfold Service.merge
      rw [Work.outcome_lift_bind, decoded, ok_bind]
      split
      case h_2 => exact ⟨_, rfl⟩
      case h_1 document timeline =>
        split
        case h_2 => exact ⟨_, rfl⟩
        case h_1 entries listed =>
          split
          case h_2 => exact ⟨_, rfl⟩
          case h_1 records database =>
            exact absurd
              ⟨entries, records, fields, document, decoded, timeline, listed, database⟩ merge

inductive UnforeseenMerge (content : Content) : Prop where
  | body (unforeseen : UnforeseenBody content)
  | record (entries : List Json) (records : Fields) (asks : AsksMerge content entries records)
      (infinite : Locations.ofFields records = .error .infinityAsInteger)
  | entry (entries : List Json) (records : Fields) (locations : Locations) (entry : Json)
      (asks : AsksMerge content entries records)
      (read : Locations.ofFields records = .ok locations) (member : entry ∈ entries)
      (stuck : ¬ ∃ fields, entry = .obj fields ∧ Mergeable locations fields)

section

variable {content : Content} {entries : List Json} {records : Fields}
  (asks : AsksMerge content entries records)

include asks

theorem foresees_faulty {fault : Fault} (session : Session)
    (faulty : Locations.ofFields records = .error fault) :
    Foresees (UnforeseenMerge content) ((Service.merge content).outcome session) := by
  have ⟨fields, document, decoded, timeline, listed, database⟩ := asks
  rw [outcome_merge session decoded timeline listed database, faulty]
  dsimp only
  cases sender : isRecordFault fault with
  | false =>
      obtain holds | rfl := faultsIn_ofFields records fault faulty
      · cases holds.symm.trans sender
      · exact foresees_error _ (.record entries records asks faulty)
  | true =>
      refine foresees_ok (isJson_refuse _) ?_
      rintro (unforeseen | ⟨_, _, asks', infinite⟩ | ⟨_, _, _, _, asks', read⟩)
      · exact not_unforeseenBody decoded unforeseen
      · obtain ⟨rfl, rfl⟩ := asks.unique asks'
        cases faulty.symm.trans infinite
        cases sender
      · obtain ⟨rfl, rfl⟩ := asks.unique asks'
        cases faulty.symm.trans read

theorem foresees_merging {locations : Locations} (session : Session)
    (read : Locations.ofFields records = .ok locations) :
    Foresees (UnforeseenMerge content) ((Service.merge content).outcome session) := by
  have ⟨fields, document, decoded, timeline, listed, database⟩ := asks
  rw [outcome_merge session decoded timeline listed database, read]
  dsimp only
  rw [Merge.document_of_list listed]
  by_cases each : ∀ entry ∈ entries, ∃ fields, entry = .obj fields ∧ Mergeable locations fields
  case pos =>
    have merges := fun entry member => mergeable_iff.mpr (each entry member)
    obtain ⟨merged, traversed⟩ := mapM_ok_of_forall fun entry member => (merges entry member).1
    have ordered : entries.all (isOrdered locations) = true :=
      List.all_eq_true.mpr fun entry member => (merges entry member).2
    rw [traversed, ordered]
    refine foresees_ok (isJson_success _) ?_
    rintro (unforeseen | ⟨_, _, asks', infinite⟩ | ⟨_, _, _, entry, asks', read', member, stuck⟩)
    · exact not_unforeseenBody decoded unforeseen
    · obtain ⟨rfl, rfl⟩ := asks.unique asks'
      cases read.symm.trans infinite
    · obtain ⟨rfl, rfl⟩ := asks.unique asks'
      cases read.symm.trans read'
      exact stuck (each entry member)
  case neg =>
    push Not at each
    obtain ⟨entry, member, stuck⟩ := each
    have stuck : ¬ ∃ fields, entry = .obj fields ∧ Mergeable locations fields :=
      fun ⟨fields, same, mergeable⟩ => stuck fields same mergeable
    refine .inr ⟨?_, .entry entries records locations entry asks read member stuck⟩
    cases traversed : entries.mapM (Merge.entry locations) with
    | error fault => rfl
    | ok merged =>
        have disordered : ¬ entries.all (isOrdered locations) = true := fun ordered =>
          stuck (mergeable_iff.mp ⟨exists_of_mapM_ok traversed member,
            List.all_eq_true.mp ordered entry member⟩)
        change answerOf (.ok (if _ then _ else _)) = _
        rw [if_neg disordered]
        rfl

end

theorem foresees_merge (session : Session) (content : Content) :
    Foresees (UnforeseenMerge content) ((Service.merge content).outcome session) := by
  obtain ⟨fault, failed, outcome⟩ | ⟨entries, records, asks⟩ | ⟨⟨fields, decoded⟩, other, text,
    outcome⟩ := merge_cases session content
  · rw [outcome]
    exact foresees_error fault (.body (unforeseenBody_iff.mpr ⟨fault, failed⟩))
  · cases read : Locations.ofFields records with
    | error fault => exact foresees_faulty asks session read
    | ok locations => exact foresees_merging asks session read
  · rw [outcome]
    refine foresees_ok (isJson_refuse text) ?_
    rintro (unforeseen | ⟨entries, records, asks⟩ | ⟨entries, records, _, _, asks⟩)
    · exact not_unforeseenBody decoded unforeseen
    · exact other entries records asks
    · exact other entries records asks

/-! ## Requests -/

/-- A request to resolve or to merge is always answered: with JSON just if the handler expects such
a request, and with a page if not. -/
theorem answer_json_or_page (site : Site) (content : Content) (session : Session) :
    (∃ given after,
      (answer site { method := "POST", path := "/api/resolve", content }).result session =
        (.ok given, after) ∧
      (given.IsJson ∧ ¬ UnforeseenFunctions site session content ∨
        given = page 500 ∧ UnforeseenFunctions site session content)) ∧
    ∃ given after,
      (answer site { method := "POST", path := "/api/merge", content }).result session =
        (.ok given, after) ∧
      (given.IsJson ∧ ¬ UnforeseenMerge content ∨ given = page 500 ∧ UnforeseenMerge content) := by
  constructor
  · exact ⟨_, _, result_answer (by decide) rfl site content session,
      foresees_resolve site session content⟩
  · have answered := @result_answer "/api/merge" (fun _ content => Service.merge content)
      (by decide) rfl site content session
    exact ⟨_, _, answered, foresees_merge session content⟩

def listRequest : List Char :=
  "[\"f\"]".toList

def listBody : Content :=
  .bytes "application/json" (listRequest.map Char.toUInt8)

theorem payload_listBody : payload listBody = .arr [.str "f"] := by
  have encoding : Encoding.detect (listRequest.map Char.toUInt8) =
      (.utf8, listRequest.map Char.toUInt8) := rfl
  have text : textOf? (listRequest.map Char.toUInt8) = some listRequest := by
    rw [textOf?, encoding]
    cbv
  refine payload_of_text text ?_
  cbv

theorem answer_listBody :
    (answer sampleSite { method := "POST", path := "/api/resolve", content := listBody }).outcome
      Workflow.Annotator.sampleSession = .ok (page 500) ∧ ¬ (page 500).IsJson := by
  have faulty : payloadFields listBody = .error (.noOperation "list" "get") := by
    rw [payloadFields, payload_listBody]
    rfl
  refine ⟨?_, not_isJson_page 500⟩
  obtain ⟨fault, -, outcome⟩ | ⟨fields, decoded, -⟩ :=
    resolve_cases sampleSite Workflow.Annotator.sampleSession listBody
  · rw [outcome_answer_resolve, outcome]
    rfl
  · cases faulty.symm.trans decoded

end CallTimeline.Service
