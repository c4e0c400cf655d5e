import CallTimeline.Proofs.Annotation.Composition
import CallTimeline.Proofs.Annotation.Locality
import CallTimeline.Proofs.Service.Requests
import CallTimeline.Proofs.Source.Database
import CallTimeline.Proofs.Workflow.Annotation

namespace CallTimeline

open Source Json

theorem Source.Settings.cutShort?_of_one_worker {settings : Settings}
    (one : settings.workers = some 1) (processors : Nat) (names : List Json) :
    settings.cutShort? processors names = .ok none := by
  refine cutShort?_of_not_shared ?_
  rw [isShared, Settings.workersOf, one]
  exact Bool.and_false _

namespace Service

/-! ## Bodies -/

theorem payloadFields_of_payload {content : Content} {fields : Fields} {key : String} {value : Json}
    (decoded : payload content = .obj fields) (some : fields.get? key = some value) :
    payloadFields content = .ok fields := by
  rw [payloadFields, decoded]
  cases fields with
  | nil => cases some
  | cons => rfl

/-! ## Resolving -/

def settingsFor (timeout : Float) : Settings :=
  { timeout := some (.real timeout), workers := some 1 }

/-- The locations of some functions, each resolved within the same time. -/
def locationsFor (settings : Settings) (root : Root) (functions : List String) : Locations :=
  (distinctNames (functions.map .str)).map fun name =>
    (name, locationWithin settings root none name)

theorem isText_map_str {functions : List String} :
    ∀ name ∈ functions.map Json.str, name.IsText := by
  intro name member
  obtain ⟨function, -, rfl⟩ := List.mem_map.mp member
  exact ⟨function, rfl⟩

theorem mem_locationsFor {settings : Settings} {root : Root} {functions : List String}
    {name : Json} :
    name ∈ (locationsFor settings root functions).map (·.1) ↔ name ∈ functions.map Json.str := by
  rw [locationsFor, List.map_map, distinctNames_map_str]
  simp

theorem belong_locationsFor (settings : Settings) (root : Root) (functions : List String) :
    (locationsFor settings root functions).Belong (locationWithin settings root none) := by
  intro entry member
  have named := mem_locationsFor.mp (List.mem_map_of_mem member)
  obtain ⟨name, -, rfl⟩ := List.mem_map.mp member
  exact ⟨isText_map_str _ named, locationOf_function settings root name, rfl⟩

structure AsksSearch (site : Site) (session : Session) (content : Content) (fields : Fields)
    (names : List Json) : Prop where
  decoded : payloadFields content = .ok fields
  functions : fields.get? "functions" = some (.arr names)
  text : names.all isText = true
  there : site.sourceRoot.isEmpty = false
  directory : session.tree.isDirectory site.sourceRoot = true

theorem resolve_cases (site : Site) (session : Session) (content : Content) :
    (∃ fault, payloadFields content = .error fault ∧
      (Service.resolve site content).outcome session = .error fault) ∨
    ∃ fields, payloadFields content = .ok fields ∧
      ((∃ names, AsksSearch site session content fields names) ∨
        (∀ names, ¬ AsksSearch site session content fields names) ∧
          ∃ text, (Service.resolve site content).outcome session = .ok (refuse 400 text)) := by
  cases decoded : payloadFields content with
  | error fault =>
      refine .inl ⟨fault, rfl, ?_⟩
      unfold Service.resolve
      rw [Work.outcome_lift_bind, decoded]
      rfl
  | ok fields =>
      refine .inr ⟨fields, rfl, ?_⟩
      by_cases search : ∃ names, AsksSearch site session content fields names
      case pos => exact .inl search
      refine .inr ⟨not_exists.mp search, ?_⟩
      unfold Service.resolve
      rw [Work.outcome_lift_bind, decoded, ok_bind]
      split
      case h_2 => exact ⟨_, rfl⟩
      case h_1 names functions =>
        split
        case isTrue => exact ⟨_, rfl⟩
        case isFalse text =>
          rw [Work.outcome_tree_bind]
          split
          case isTrue => exact ⟨_, rfl⟩
          case isFalse there =>
            simp only [Bool.or_eq_true, Bool.not_eq_true', not_or, Bool.not_eq_true,
              Bool.not_eq_false] at text there
            exact absurd ⟨names, decoded, functions, text, there.1, there.2⟩ search

def searched (site : Site) (session : Session) (names : List Json) (timeout : Float) :
    Except Fault Answer := do
  let resolutions ←
    resolveAll (settingsFor timeout) (Root.of session.tree site.sourceRoot) 1 names
  let database ← (locationsOf resolutions).toJson
  let resolution ← (locationsOf resolutions).summary
  return success (.obj [("functions", database), ("resolution", resolution)])

theorem AsksSearch.outcome_resolve {site : Site} {session : Session} {content : Content}
    {fields : Fields} {names : List Json}
    (asks : AsksSearch site session content fields names) :
    (Service.resolve site content).outcome session =
      seconds ((fields.get? "timeout").getD (.real defaultTimeout)) >>= fun
        | none => .ok (refuse 400 "'timeout' must be a number of seconds")
        | some timeout =>
          if timeout < 0.0 then .ok (refuse 400 "'timeout' must not be negative")
          else searched site session names timeout := by
  unfold Service.resolve
  rw [Work.outcome_lift_bind, asks.decoded, ok_bind]
  simp only [asks.functions, asks.text, asks.there, Bool.not_true, Bool.false_eq_true, if_false,
    Bool.false_or]
  rw [Work.outcome_tree_bind, asks.directory, if_neg (by decide), Work.outcome_lift_bind]
  congr 1
  funext timeout
  cases timeout with
  | none => rfl
  | some timeout =>
      dsimp only
      split
      case isTrue => rfl
      case isFalse =>
        rw [Work.outcome_tree_bind, Work.outcome_lift_bind]
        refine bind_congr fun resolutions => ?_
        refine (Work.prints_forM fun line _ => Work.prints_print line).outcome_bind fun output => ?_
        rw [Work.outcome_lift_bind]
        refine bind_congr fun database => ?_
        rw [Work.outcome_lift_bind]
        rfl

theorem exists_summary {locations : Locations} (text : ∀ entry ∈ locations, entry.1.IsText) :
    ∃ resolution, locations.summary = .ok resolution := by
  obtain ⟨unresolved, unresolved_eq⟩ := unresolved_of_text text
  rw [Locations.summary, unresolved_eq]
  exact ⟨_, rfl⟩

theorem outcome_resolve_database {site : Site} {session : Session} {content : Content}
    {fields : Fields} {functions : List String} {timeout : Float}
    (asks : AsksSearch site session content fields (functions.map .str))
    (known : seconds ((fields.get? "timeout").getD (.real defaultTimeout)) = .ok (some timeout))
    (notNegative : ¬ timeout < 0.0) :
    let locations :=
      locationsFor (settingsFor timeout) (Root.of session.tree site.sourceRoot) functions
    ∃ database, locations.toJson = .ok (.obj database) ∧
      ∃ resolution, (Service.resolve site content).outcome session =
        .ok (success (.obj [("functions", .obj database), ("resolution", resolution)])) := by
  intro locations
  have batch := resolveAll_of_text (settingsFor timeout) (Root.of session.tree site.sourceRoot) 1
    (@isText_map_str functions)
  rw [Settings.cutShort?_of_one_worker rfl] at batch
  obtain ⟨resolutions, resolved, found⟩ := of_map_ok batch
  have found : locationsOf resolutions = locations := found
  have belong : locations.Belong _ := belong_locationsFor _ _ functions
  obtain ⟨database, written, -⟩ := belong.toJson
  obtain ⟨resolution, summed⟩ := exists_summary fun entry member => (belong entry member).1
  refine ⟨database, written, resolution, ?_⟩
  rw [asks.outcome_resolve, known, ok_bind]
  dsimp only
  rw [if_neg notNegative, searched, resolved, ok_bind, found, written, ok_bind, summed]
  rfl

/-! ## Merging -/

theorem outcome_merge {content : Content} {fields document records : Fields}
    {entries : List Json} (session : Session)
    (decoded : payloadFields content = .ok fields)
    (timeline : fields.get? "timeline" = some (.obj document))
    (listed : document.get? "timeline" = some (.arr entries))
    (database : fields.get? "locations" = some (.obj records)) :
    (Service.merge content).outcome session =
      match Locations.ofFields records with
      | .ok locations => (Merge.document locations (.obj document)).map fun merged =>
          if entries.all (isOrdered locations) then success merged else page 500
      | .error fault =>
        if isRecordFault fault then
          .ok (refuse 400 ("Invalid location record: " ++ fault.message))
        else .error fault := by
  have listed : document.lookup "timeline" = some (.arr entries) := listed
  unfold Service.merge
  rw [Work.outcome_lift_bind, decoded, ok_bind]
  simp only [timeline, listed, database]
  cases Locations.ofFields records with
  | error fault =>
      dsimp only
      split <;> rfl
  | ok locations =>
      dsimp only
      rw [Work.outcome_lift_bind]
      cases Merge.document locations (.obj document) <;> rfl

def hasOrderedSource (entry : Fields) : Bool :=
  ((entry.get? "source_info").map hasTextKeys).getD true

/-- The assumption on what can be encoded: an answer is sent with its fields in the order of their
keys, so the keys of source information that is merged must all be text. Those of an object are. -/
def IsEncodable (entries : List Fields) : Prop :=
  ∀ entry ∈ entries, hasOrderedSource entry = true

theorem hasOrderedSource_of_shaped {entry : Fields} (shaped : Merge.Shaped entry) :
    hasOrderedSource entry = true := by
  rw [hasOrderedSource]
  cases present : entry.get? "source_info" with
  | none => rfl
  | some value =>
      obtain ⟨info, rfl⟩ := shaped.source value present
      rfl

theorem isOrdered_of_located {locations : Locations} {entry : Fields} {location : Location}
    (located : locations.find? (Merge.nameOf entry) = some location) :
    isOrdered locations (.obj entry) = hasOrderedSource entry := by
  rw [isOrdered, located, hasOrderedSource, Fields.get?]
  cases List.lookup "source_info" entry <;> rfl

theorem exists_document_ok {document : Fields} {entries : List Fields} (locations : Locations)
    (timeline : document.get? "timeline" = some (.arr (entries.map .obj)))
    (wellFormed : ∀ entry ∈ entries, Merge.Shaped entry ∧ Merge.Lookable entry) :
    ∃ merged, Merge.document locations (.obj document) = .ok merged := by
  have each : ∀ entry ∈ entries.map Json.obj, ∃ merged, Merge.entry locations entry = .ok merged :=
    List.forall_mem_map.mpr fun entry member =>
      have ⟨shaped, lookable⟩ := wellFormed entry member
      shaped.entry_ok.mpr lookable
  obtain ⟨items, traversed⟩ := mapM_ok_of_forall each
  rw [Merge.document_of_list timeline, traversed]
  exact ⟨_, rfl⟩

/-! ## Annotating at once -/

theorem documentNames_of_named {document : Fields} {entries : List Fields}
    {functions : List String} (timeline : document.get? "timeline" = some (.arr (entries.map .obj)))
    (named : entries.map Merge.nameOf = functions.map .str) (nonempty : "" ∉ functions) :
    Workflow.documentNames (.obj document) = .ok (functions.map .str) := by
  rw [Workflow.documentNames_obj timeline, Document.namesOf, named]
  refine congrArg Except.ok (List.filter_eq_self.mpr fun name member => ?_)
  obtain ⟨function, among, rfl⟩ := List.mem_map.mp member
  have some : function ≠ "" := fun empty => nonempty (empty ▸ among)
  simpa [isTruthy] using some

theorem outcome_document_of_named (annotator : Workflow.Annotator) (session : Session)
    {document : Fields} {entries : List Fields} {functions : List String}
    (one : annotator.settings.workers = some 1)
    (timeline : document.get? "timeline" = some (.arr (entries.map .obj)))
    (named : entries.map Merge.nameOf = functions.map .str) (nonempty : "" ∉ functions) :
    (annotator.document (.obj document)).outcome session =
      Merge.document (locationsFor annotator.settings
        (Root.of session.tree annotator.sourceRoot) functions) (.obj document) := by
  rw [Workflow.Annotator.document, Work.outcome_lift_bind,
    documentNames_of_named timeline named nonempty]
  change ((annotator.resolve _) >>= fun locations =>
    liftM (Merge.document locations (.obj document))).outcome session = _
  rw [Work.outcome_bind_lift, annotator.outcome_resolve_of_text session isText_map_str,
    Settings.cutShort?_of_one_worker one]
  rfl

/-! ## Resolving, then merging -/

theorem outcome_answer_merge_of_records (site : Site) (session : Session) {content : Content}
    {fields document records : Fields} {entries : List Fields} {locations back : Locations}
    (timeline : document.get? "timeline" = some (.arr (entries.map .obj)))
    (decoded : payload content = .obj fields)
    (document_eq : fields.get? "timeline" = some (.obj document))
    (database : fields.get? "locations" = some (.obj records))
    (read : Locations.ofFields records = .ok back)
    (agree : ∀ name, back.find? name = locations.find? name)
    (ordered : (entries.map Json.obj).all (isOrdered back) = true ↔ IsEncodable entries) :
    let merged := Merge.document locations (.obj document)
    let answered := (answer site { method := "POST", path := "/api/merge", content }).outcome session
    (∀ value, merged = .ok value → IsEncodable entries → answered = .ok (success value)) ∧
      ((∃ fault, merged = .error fault) ∨ ¬ IsEncodable entries → answered = .ok (page 500)) := by
  intro merged answered
  have reply : ∀ known, merged = known → answered = .ok (match known with
      | .ok value =>
        if (entries.map Json.obj).all (isOrdered back) then success value else page 500
      | .error _ => page 500) := by
    intro known same
    change Merge.document locations (.obj document) = known at same
    unfold answered
    rw [outcome_answer_merge, outcome_merge session
      (payloadFields_of_payload decoded document_eq) document_eq timeline database, read]
    dsimp only
    rw [Merge.document_congr agree, same]
    cases known <;> rfl
  constructor
  · intro value done encodable
    rw [reply _ done]
    simp only [if_pos (ordered.mpr encodable)]
  · rintro (⟨fault, fails⟩ | unordered)
    · rw [reply _ fails]
    · rw [reply _ rfl]
      simp only [if_neg (unordered ∘ ordered.mp)]
      cases merged <;> rfl

section

variable {site : Site} {session : Session} {document fields : Fields} {entries : List Fields}
  {functions requested : List String} {content : Content} {timeout : Float}

/-- Resolving the functions of a document through the service and merging the database that comes
back gives what annotating the document at once gives, if that can be encoded. If it cannot, or the
document cannot be annotated, the answer is a page. Documents whose entries have the shape and the
names of entries can be annotated and encoded. -/
theorem answer_merge_resolved (outputDirectory : String) (there : site.sourceRoot ≠ "")
    (directory : session.tree.isDirectory site.sourceRoot = true)
    (timeline : document.get? "timeline" = some (.arr (entries.map .obj)))
    (named : entries.map Merge.nameOf = functions.map .str) (nonempty : "" ∉ functions)
    (same : ∀ function, function ∈ requested ↔ function ∈ functions)
    (decoded : payload content = .obj fields)
    (names : fields.get? "functions" = some (.arr (requested.map .str)))
    (known : seconds ((fields.get? "timeout").getD (.real defaultTimeout)) = .ok (some timeout))
    (notNegative : ¬ timeout < 0.0) :
    let annotator : Workflow.Annotator :=
      { sourceRoot := site.sourceRoot, settings := settingsFor timeout, outputDirectory }
    let annotated := (annotator.document (.obj document)).outcome session
    (∃ database resolution,
      (answer site { method := "POST", path := "/api/resolve", content }).outcome session =
        .ok (success (.obj [("functions", database), ("resolution", resolution)])) ∧
      ∀ (content' : Content) (fields' : Fields) (session' : Session),
        payload content' = .obj fields' → fields'.get? "timeline" = some (.obj document) →
        fields'.get? "locations" = some database →
        let answered := (answer site
          { method := "POST", path := "/api/merge", content := content' }).outcome session'
        (∀ merged, annotated = .ok merged → IsEncodable entries →
          answered = .ok (success merged)) ∧
        ((∃ fault, annotated = .error fault) ∨ ¬ IsEncodable entries →
          answered = .ok (page 500))) ∧
      ((∀ entry ∈ entries, Merge.Shaped entry ∧ Merge.Lookable entry) →
        (∃ merged, annotated = .ok merged) ∧ IsEncodable entries) := by
  intro annotator annotated
  let root := Root.of session.tree site.sourceRoot
  have annotated_eq : annotated =
      Merge.document (locationsFor (settingsFor timeout) root functions) (.obj document) :=
    outcome_document_of_named annotator session rfl timeline named nonempty
  have asks : AsksSearch site session content fields (requested.map .str) :=
    ⟨payloadFields_of_payload decoded names, names, by simp [isText], by simpa using there, directory⟩
  constructor
  · obtain ⟨database, written, resolution, resolved⟩ :=
      outcome_resolve_database asks known notNegative
    have belong := belong_locationsFor (settingsFor timeout) root requested
    obtain ⟨records, written', back, read, belong', kept⟩ := belong.toJson
    obtain rfl : records = database := Json.obj.inj (Except.ok.inj (written'.symm.trans written))
    refine ⟨.obj records, resolution, ?_, ?_⟩
    · rw [outcome_answer_resolve, resolved]
      rfl
    · intro content' fields' session' decoded' timeline' database'
      have agree : ∀ name, back.find? name =
          (locationsFor (settingsFor timeout) root functions).find? name := by
        refine belong'.find?_congr (belong_locationsFor _ _ functions) fun name => ?_
        rw [kept, mem_locationsFor, mem_locationsFor]
        simp [same]
      have ordered : (entries.map Json.obj).all (isOrdered back) = true ↔ IsEncodable entries := by
        rw [List.all_map, List.all_eq_true]
        refine forall₂_congr fun entry member => ?_
        have listed := named ▸ List.mem_map_of_mem (f := Merge.nameOf) member
        have located := belong'.find?_of_mem ((kept _).mpr (mem_locationsFor.mpr (by
          simpa [same] using listed)))
        rw [Function.comp_apply, isOrdered_of_located located]
      rw [annotated_eq]
      exact outcome_answer_merge_of_records site session' timeline decoded' timeline' database' read
        agree ordered
  · intro wellFormed
    rw [annotated_eq]
    exact ⟨exists_document_ok _ timeline wellFormed, fun entry member =>
      hasOrderedSource_of_shaped (wellFormed entry member).1⟩

end

def sampleSite : Site where
  sourceRoot := "/"
  uploads := "/tmp"

def sampleRequest : List Char :=
  "\x7b\"functions\":[\"f\"]\x7d".toList

def sampleEntries : List Fields :=
  [[("function", .str "f"), ("call_stack", .arr [.obj [("function", .str "f")]])],
    [("func", .str "f"), ("line", .int 1)]]

theorem payload_of_text {body : List UInt8} {text : List Char} {value : Json}
    (decoded : textOf? body = some text) (read : Json.read .wide text = .ok value) :
    payload (.bytes "application/json" body) = value := by
  have kind : isJsonType "application/json" = true := by decide
  simp only [payload, kind, decoded, Option.map_some, read, if_true]

theorem payload_sampleRequest :
    payload (.bytes "application/json" (sampleRequest.map Char.toUInt8)) =
      .obj [("functions", .arr [.str "f"])] := by
  have encoding : Encoding.detect (sampleRequest.map Char.toUInt8) =
      (.utf8, sampleRequest.map Char.toUInt8) := rfl
  have text : textOf? (sampleRequest.map Char.toUInt8) = some sampleRequest := by
    rw [textOf?, encoding]
    cbv
  refine payload_of_text text ?_
  cbv

def sampleDocument : Fields :=
  [("timeline", .arr (sampleEntries.map .obj))]

theorem answer_merge_resolved_sample :
    ∃ database resolution merged,
      (answer sampleSite { method := "POST", path := "/api/resolve"
                           content := .bytes "application/json" (sampleRequest.map Char.toUInt8) }
        ).outcome Workflow.Annotator.sampleSession =
          .ok (success (.obj [("functions", database), ("resolution", resolution)])) ∧
      (Workflow.Annotator.document { sourceRoot := "/", settings := settingsFor 10.0 }
        (.obj sampleDocument)).outcome Workflow.Annotator.sampleSession = .ok merged ∧
      ∀ content, payload content = .obj [("timeline", .obj sampleDocument), ("locations", database)] →
        (answer sampleSite { method := "POST", path := "/api/merge", content }).outcome
          Workflow.Annotator.sampleSession = .ok (success merged) := by
  have there : sampleSite.sourceRoot ≠ "" := by decide
  have directory : Workflow.Annotator.sampleSession.tree.isDirectory "/" = true := by cbv
  have named : sampleEntries.map Merge.nameOf = ["f", "f"].map .str := rfl
  have nonempty : "" ∉ ["f", "f"] := by decide
  have same : ∀ function, function ∈ ["f"] ↔ function ∈ ["f", "f"] := by simp
  have notNegative : ¬ (10.0 : Float) < 0.0 := by decide
  have wellFormed : ∀ entry ∈ sampleEntries, Merge.Shaped entry ∧ Merge.Lookable entry := by
    refine List.forall_mem_cons.mpr ⟨⟨⟨?_, ?_⟩, ⟨rfl, ?_⟩⟩,
      List.forall_mem_singleton.mpr ⟨⟨?_, ?_⟩, ⟨rfl, ?_⟩⟩⟩
    · rintro _ ⟨⟩
    · rintro _ ⟨⟩
      exact ⟨[[("function", .str "f")]], rfl⟩
    · intro stack present frame member
      have frames : stack.map Json.obj = [.obj [("function", .str "f")]] :=
        (Json.arr.inj (Option.some.inj present)).symm
      obtain ⟨_, rfl, own⟩ := List.map_eq_singleton_iff.mp frames
      cases own
      obtain rfl := List.mem_singleton.mp member
      rfl
    · rintro _ ⟨⟩
    · rintro _ ⟨⟩
    · rintro _ ⟨⟩
  obtain ⟨⟨database, resolution, resolved, merges⟩, annotates⟩ :=
    @answer_merge_resolved sampleSite Workflow.Annotator.sampleSession sampleDocument _ sampleEntries
      ["f", "f"] ["f"] _ 10.0 "" there directory rfl named nonempty same payload_sampleRequest rfl rfl
      notNegative
  obtain ⟨⟨merged, annotated⟩, encodable⟩ := annotates wellFormed
  refine ⟨database, resolution, merged, resolved, annotated, fun content decoded => ?_⟩
  obtain ⟨answered, -⟩ := merges content _ Workflow.Annotator.sampleSession decoded rfl rfl
  exact answered merged annotated encodable

end Service

end CallTimeline
