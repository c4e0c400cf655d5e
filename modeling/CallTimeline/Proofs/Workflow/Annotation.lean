import CallTimeline.Proofs.Annotation.Objects
import CallTimeline.Proofs.Annotation.Records
import CallTimeline.Proofs.Session
import CallTimeline.Proofs.Source.Batch
import CallTimeline.Proofs.Source.Database
import CallTimeline.Proofs.Timeline.Document
import CallTimeline.Proofs.Trace.Stacks
import CallTimeline.Workflow.Annotate

namespace CallTimeline

open Source Json

section

variable (locate : Json → Location)

def Frame.located (frame : Frame Json) : Frame Json :=
  { frame with
    file := (locate frame.function).file
    line := (locate frame.function).line }

def Entry.located (entry : Entry) : Entry :=
  { entry with
    stack := entry.stack.map (Frame.located locate)
    file := (locate entry.function).file
    line := (locate entry.function).line }

def Timeline.located (timeline : Timeline) : Timeline :=
  { timeline with entries := timeline.entries.map (Entry.located locate) }

variable {locate} {locations : Locations}

theorem Entry.withLocations_of_found {entry : Entry} (name : entry.function.IsName)
    (found : locations.find? entry.function = some (locate entry.function))
    (frames : ∀ frame ∈ entry.stack, frame.function.checkName = .ok () ∧
      locations.find? frame.function = some (locate frame.function)) :
    entry.withLocations locations = .ok (entry.located locate) := by
  have stack : entry.stack.mapM (Frame.withLocation locations) =
      .ok (entry.stack.map (Frame.located locate)) := by
    refine mapM_eq_ok_map fun frame member => ?_
    obtain ⟨checked, found⟩ := frames frame member
    rw [Frame.withLocation, lookup_of_checkName locations checked, found]
    rfl
  rw [Entry.withLocations_eq locations name, stack, found]
  rfl

end

theorem Workflow.documentNames_of_parts {fields : Fields} {items : List Json}
    (listed : ((fields.get? "timeline").getD (.arr [])).parts = .ok items) :
    Workflow.documentNames (.obj fields) =
      (items.mapM fun entry => do return Merge.nameOf (← entry.fields) :
        Except Fault (List Json)).map (List.filter isTruthy) := by
  change ((fields.get? "timeline").getD (.arr [])).parts >>= (fun entries =>
    entries.mapM (fun entry => do return Merge.nameOf (← entry.fields)) >>= fun names =>
      (.ok (names.filter isTruthy) : Except Fault (List Json))) = _
  rw [listed]
  rfl

theorem Workflow.documentNames_obj {fields : Fields} {entries : List Fields}
    (timeline : fields.get? "timeline" = some (.arr (entries.map .obj))) :
    Workflow.documentNames (.obj fields) = .ok (Document.namesOf entries) := by
  have names : (entries.map Json.obj).mapM
      (fun entry => do return Merge.nameOf (← entry.fields)) =
        (.ok (entries.map Merge.nameOf) : Except Fault (List Json)) := by
    rw [List.mapM_map]
    exact mapM_eq_ok_map fun entry _ => rfl
  rw [Workflow.documentNames_of_parts (congrArg (fun value => (value.getD (.arr [])).parts) timeline),
    names]
  rfl

namespace Timeline

structure Complete (timeline : Timeline) : Prop where
  named : ∀ entry ∈ timeline.entries, ∃ text, text ≠ "" ∧ entry.function = .str text
  frames : ∀ entry ∈ timeline.entries, ∀ frame ∈ entry.stack,
    ∃ other ∈ timeline.entries, other.function = frame.function

variable {timeline : Timeline}

theorem Complete.isName (h : timeline.Complete) {entry : Entry}
    (member : entry ∈ timeline.entries) : entry.function.IsName := by
  obtain ⟨text, nonempty, function⟩ := h.named entry member
  rw [function]
  exact isName_str nonempty

theorem Complete.text (h : timeline.Complete) {name : Json}
    (member : name ∈ timeline.entries.map (·.function)) : name.IsText := by
  obtain ⟨entry, among, rfl⟩ := List.mem_map.mp member
  obtain ⟨text, -, function⟩ := h.named entry among
  exact ⟨text, function⟩

theorem Complete.document (h : timeline.Complete) {locations : Locations}
    {locate : Json → Location}
    (found : ∀ entry ∈ timeline.entries,
      locations.find? entry.function = some (locate entry.function))
    (now : String) (metadata : Fields) :
    Merge.document locations (timeline.toJson now metadata) =
      .ok ((timeline.located locate).toJson now metadata) := by
  have located : timeline.entries.mapM (Entry.withLocations locations) =
      .ok (timeline.entries.map (Entry.located locate)) := by
    refine mapM_eq_ok_map fun entry member => ?_
    refine Entry.withLocations_of_found (h.isName member) (found entry member) fun frame among => ?_
    obtain ⟨other, listed, same⟩ := h.frames entry member frame among
    rw [← same]
    exact ⟨(h.isName listed).checked, found other listed⟩
  have entries : (timeline.entries.map Entry.toJson).mapM (Merge.entry locations) =
      .ok ((timeline.entries.map (Entry.located locate)).map Entry.toJson) := by
    rw [mapM_map_eq_map_mapM fun entry member => Merge.entry_toJson locations (h.isName member),
      located]
    rfl
  have status : (timeline.located locate).hasData = timeline.hasData := by
    rw [hasData, hasData, Timeline.located, List.isEmpty_map]
  refine Merge.document_eq_ok.mpr ⟨_, rfl, _, rfl, _, entries, ?_⟩
  rw [toJson, status]
  rfl

theorem Complete.documentNames (h : timeline.Complete) (now : String) (metadata : Fields) :
    Workflow.documentNames (timeline.toJson now metadata) =
      .ok (timeline.entries.map (·.function)) := by
  have names := Document.namesOf_record fun entry member => h.isName member
  rw [← names]
  refine Workflow.documentNames_obj ?_
  rw [List.map_map]
  rfl

variable {settings : Trace.Settings} {lines : List (List Char)} {replay : Trace.Replay}

theorem complete_ofReplay (h : Trace.Replay.run settings lines = .ok replay)
    (named : ∀ event ∈ replay.events.toList, event.function ≠ "") :
    (ofReplay settings replay).Complete := by
  have numbered := Trace.Replay.numbered_of_run h
  constructor
  · intro entry member
    obtain ⟨event, among, function, -⟩ := exists_event settings numbered member
    exact ⟨event.function, named event among, function⟩
  · intro entry member frame onStack
    obtain ⟨event, among, -, stack⟩ := exists_event settings numbered member
    rw [stack] at onStack
    obtain ⟨frame, within, rfl⟩ := List.mem_map.mp onStack
    obtain ⟨other, occurs, same⟩ := Trace.Replay.function_of_frame h among within
    obtain ⟨entry', listed, function⟩ := exists_entry settings numbered occurs
    exact ⟨entry', listed, by rw [function, same]; rfl⟩

end Timeline

structure Entry.HangsOn (entry : Entry) (before : List Entry) : Prop where
  own : ∃ own, entry.stack.getLast? = some own ∧ own.function = entry.function ∧
    own.file = entry.file ∧ own.line = entry.line
  parent : entry.stack.dropLast = [] ∨
    ∃ parent ∈ before, parent.kind = .entry ∧ parent.stack = entry.stack.dropLast

namespace Timeline

variable {settings : Trace.Settings} {lines : List (List Char)} {replay : Trace.Replay}

theorem hangsOn_of_located (h : Trace.Replay.run settings lines = .ok replay)
    (locate : Json → Location) {before : List Entry} {entry : Entry}
    (initial : before ++ [entry] <+: ((ofReplay settings replay).located locate).entries) :
    entry.HangsOn before := by
  let view (entry : Entry) := (entry.function, entry.kind, entry.stack, entry.file, entry.line)
  let viewEvent (event : Trace.Event) :=
    let own := locate (.str event.function)
    (Json.str event.function, event.kind,
      event.stack.map fun frame => (frame.map Json.str).located locate, own.file, own.line)
  have views : ((ofReplay settings replay).located locate).entries.map view =
      replay.events.toList.map viewEvent := by
    rw [located, List.map_map]
    refine map_ofReplay settings (fun step event flow => ?_) (Trace.Replay.numbered_of_run h)
    simp [view, viewEvent, Entry.located, entryAt]
  have start := initial.map view
  rw [views, List.prefix_map_iff] at start
  obtain ⟨events, starts, same⟩ := start
  rw [List.map_append, List.map_singleton] at same
  obtain ⟨earlier, last, rfl, before_eq, last_eq⟩ := List.map_eq_append_iff.mp same.symm
  obtain ⟨event, rfl, entry_eq⟩ := List.map_eq_singleton_iff.mp last_eq
  obtain ⟨⟨own, own_eq, same_function⟩, parent⟩ := Trace.Replay.stack_of_run h starts
  simp only [view, viewEvent, Prod.mk.injEq] at entry_eq
  obtain ⟨function, -, stack, file, line⟩ := entry_eq
  constructor
  · refine ⟨(own.map .str).located locate, ?_, ?_, ?_, ?_⟩
    · rw [← stack, List.getLast?_map, own_eq, Option.map_some]
    · exact (congrArg Json.str same_function).trans function
    · rw [← file, ← same_function]
      rfl
    · rw [← line, ← same_function]
      rfl
  · rw [← stack, ← List.map_dropLast]
    refine parent.imp (fun empty => by rw [empty, List.map_nil]) ?_
    rintro ⟨parent, among, kind, parent_stack⟩
    obtain ⟨entry', member, entry_eq'⟩ :=
      List.mem_map.mp (before_eq ▸ List.mem_map_of_mem (f := viewEvent) among)
    simp only [view, viewEvent, Prod.mk.injEq] at entry_eq'
    exact ⟨entry', member, entry_eq'.2.1.trans kind, by rw [entry_eq'.2.2.1, parent_stack]⟩

end Timeline

namespace Workflow.Annotator

variable (annotator : Annotator) (session : Session)

theorem prints_reports (resolutions : List Resolution) :
    (forIn (reports resolutions) PUnit.unit fun report _ => do
        match report.resolution.complaintLine? with
        | some line => Work.print line
        | none => pure ()
        Work.print (progressLine report)
        pure (.yield ⟨⟩) : Work PUnit).Prints ⟨⟩ := by
  refine Work.prints_forIn fun report _ => ?_
  have last : (Work.print (progressLine report) >>= fun _ =>
      pure (ForInStep.yield PUnit.unit)).Prints (.yield PUnit.unit) :=
    (Work.prints_print _).bind (Work.prints_pure _)
  cases report.resolution.complaintLine? with
  | none => exact last
  | some line => exact (Work.prints_print line).bind last

theorem outcome_resolve (names : List Json) :
    (annotator.resolve names).outcome session =
      (do
        names.forM checkName
        let resolutions ← resolveAll annotator.settings
          (Root.of session.tree annotator.sourceRoot) session.host.processors names
        let _ ← (locationsOf resolutions).unresolved
        return locationsOf resolutions) := by
  rw [resolve, Work.outcome_forIn_lift_bind]
  congr 1
  funext _
  refine (Work.prints_print _).outcome_bind fun output => ?_
  rw [Work.outcome_host_bind, Work.outcome_tree_bind, Work.outcome_lift_bind]
  congr 1
  funext resolutions
  refine (prints_reports resolutions).outcome_bind fun output => ?_
  rw [Work.outcome_modify_bind, Work.outcome_lift_bind]
  rfl

theorem outcome_resolve_of_text {names : List Json} (text : ∀ name ∈ names, name.IsText) :
    (annotator.resolve names).outcome session =
      (annotator.settings.cutShort? session.host.processors (distinctNames names)).map fun early =>
        (distinctNames names).map fun name =>
          (name, locationWithin annotator.settings
            (Root.of session.tree annotator.sourceRoot) early name) := by
  rw [outcome_resolve, forM_checkName_of_text text]
  have batch := resolveAll_of_text annotator.settings
    (Root.of session.tree annotator.sourceRoot) session.host.processors text
  rw [← batch]
  change (resolveAll _ _ _ _ >>= _) = _
  cases resolved : resolveAll annotator.settings (Root.of session.tree annotator.sourceRoot)
      session.host.processors names with
  | error fault => rfl
  | ok resolutions =>
      rw [resolved] at batch
      obtain ⟨_, -, locations_eq⟩ := of_map_ok batch.symm
      have texts : ∀ entry ∈ locationsOf resolutions, entry.1.IsText := by
        rw [← locations_eq]
        intro entry member
        obtain ⟨name, among, rfl⟩ := List.mem_map.mp member
        exact text name (mem_of_mem_distinctNames among)
      obtain ⟨unresolved, unresolved_eq⟩ := unresolved_of_text texts
      change ((locationsOf resolutions).unresolved >>= _) = _
      rw [unresolved_eq]
      rfl

theorem outcome_document {timeline : Timeline} (complete : timeline.Complete) (now : String)
    (metadata : Fields) :
    (annotator.document (timeline.toJson now metadata)).outcome session =
      (annotator.settings.cutShort? session.host.processors timeline.functions).map fun early =>
        (timeline.located (locationWithin annotator.settings
          (Root.of session.tree annotator.sourceRoot) early)).toJson now metadata := by
  have text : ∀ name ∈ timeline.entries.map (·.function), name.IsText :=
    fun _ member => complete.text member
  rw [Annotator.document, Work.outcome_lift_bind, complete.documentNames]
  change ((annotator.resolve _) >>= fun locations =>
    liftM (Merge.document locations (timeline.toJson now metadata))).outcome session = _
  rw [Work.outcome_bind_lift, outcome_resolve_of_text _ _ text, Timeline.functions]
  cases annotator.settings.cutShort? session.host.processors
      (distinctNames (timeline.entries.map (·.function))) with
  | error fault => rfl
  | ok early =>
      refine complete.document (fun entry member => ?_) now metadata
      obtain ⟨text, -, function⟩ := complete.named entry member
      rw [function]
      refine Locations.find?_str ?_ ?_
      · exact List.forall_mem_map.mpr fun _ _ => rfl
      · have among := List.mem_map_of_mem (f := Entry.function) member
        rw [function] at among
        exact List.mem_map_of_mem (List.mem_map_of_mem (str_mem_distinctNames.mpr among))

/-- Annotating the document of a trace gives every entry and every frame the file and the line that
the resolver has for its function, and changes nothing else; the one fault that can come of it is a
deadline that is no double. The stacks hang together as before. -/
theorem document_ofReplay {settings : Trace.Settings} {lines : List (List Char)}
    {replay : Trace.Replay} (h : Trace.Replay.run settings lines = .ok replay)
    (named : ∀ event ∈ replay.events.toList, event.function ≠ "") (now : String)
    (metadata : Fields) :
    let timeline := Timeline.ofReplay settings replay
    let located (early : Option Ending) := timeline.located
      (locationWithin annotator.settings (Root.of session.tree annotator.sourceRoot) early)
    let outcome := (annotator.document (timeline.toJson now metadata)).outcome session
    ((∃ early, annotator.settings.cutShort? session.host.processors timeline.functions =
          .ok early ∧ outcome = .ok ((located early).toJson now metadata)) ∨
        outcome = .error .integerAsReal ∧ ∃ seconds,
          annotator.settings.timeout = some (.int seconds) ∧
            Double.isFinite (Double.ofInt
              (roundsOf annotator.settings session.host.processors timeline.functions * seconds)) =
                false) ∧
      ∀ early before entry, before ++ [entry] <+: (located early).entries →
        entry.HangsOn before := by
  intro timeline located outcome
  refine ⟨?_, fun _ _ _ initial => Timeline.hangsOn_of_located h _ initial⟩
  have all : outcome = _ :=
    annotator.outcome_document session (Timeline.complete_ofReplay h named) now metadata
  cases cut : annotator.settings.cutShort? session.host.processors timeline.functions with
  | ok early =>
      rw [cut] at all
      exact .inl ⟨early, rfl, all⟩
  | error fault =>
      rw [cut] at all
      obtain ⟨rfl, tooLarge⟩ := fault_of_cutShort? cut
      exact .inr ⟨all, tooLarge⟩

def recursiveTrace : List (List Char) :=
  ["0)   |f() \x7b".toList, "0)   |  f();".toList, "0)   |\x7d".toList]

def sampleSession : Session where
  host := { now := "", stamp := "", elapsed := "", release := "", processors := 1 }
  tree := (textRoot sampleText).tree

theorem sampleSession_locationOf :
    (locationOf sampleSettings (Root.of sampleSession.tree "/") (.str "f")).line = 2 := by
  have path : Path.absolute (textRoot sampleText).tree.workingPath "/" = "/" := by decide +kernel
  have root : Root.of sampleSession.tree "/" = textRoot sampleText := by
    rw [Root.of, textRoot]
    exact congrArg (Root.mk _) path
  rw [root, locationOf_str, resolve_sampleText]
  rfl

theorem document_ofReplay_recursive :
    ∃ replay, Trace.Replay.run {} recursiveTrace = .ok replay ∧
      (∀ event ∈ replay.events.toList, event.function ≠ "") ∧
      ∃ located : Timeline,
        (Annotator.document { sourceRoot := "/", settings := sampleSettings }
            ((Timeline.ofReplay {} replay).toJson "" [])).outcome sampleSession =
          .ok (located.toJson "" []) ∧
        located.entries.map (fun entry => (entry.line, entry.stack.map (·.line))) =
          [(2, [2]), (2, [2, 2])] := by
  have reads : (Trace.Replay.run {} recursiveTrace).map (fun replay =>
      replay.events.toList.map fun event => (event.function, event.stack.map (·.function))) =
        .ok [("f", ["f"]), ("f", ["f", "f"])] := by rfl
  obtain ⟨replay, runs, functions⟩ := of_map_ok reads
  have named : ∀ event ∈ replay.events.toList, event.function ≠ "" := by
    intro event member
    have shown := List.mem_map_of_mem
      (f := fun event => (event.function, event.stack.map (·.function))) member
    simp only [functions, List.mem_cons, Prod.mk.injEq, List.not_mem_nil, or_false] at shown
    have function : event.function = "f" := shown.elim And.left And.left
    rw [function]
    decide
  obtain ⟨⟨early, cut, done⟩ | ⟨-, _, none, -⟩, -⟩ := document_ofReplay
    { sourceRoot := "/", settings := sampleSettings } sampleSession runs named "" []
  · have alone (names : List Json) : isShared sampleSettings 1 names = false := Bool.and_false _
    obtain rfl : none = early :=
      Except.ok.inj ((cutShort?_of_not_shared (alone _)).symm.trans cut)
    refine ⟨replay, runs, named, _, done, ?_⟩
    let locate := locationWithin sampleSettings (Root.of sampleSession.tree "/") none
    let line (function : String) : Int := (locate (.str function)).line
    have lines : ((Timeline.ofReplay {} replay).located locate).entries.map
        (fun entry => (entry.line, entry.stack.map (·.line))) =
          (replay.events.toList.map fun event =>
            (event.function, event.stack.map (·.function))).map fun shown =>
              (line shown.1, shown.2.map line) := by
      rw [Timeline.located, List.map_map, List.map_map]
      refine Timeline.map_ofReplay {} (fun step event flow => ?_)
        (Trace.Replay.numbered_of_run runs)
      simp [Entry.located, Timeline.entryAt, Frame.located, Frame.map, line]
    have found : line "f" = 2 := sampleSession_locationOf
    refine lines.trans ?_
    rw [functions]
    simp [found]
  · cases none

end Workflow.Annotator

end CallTimeline
