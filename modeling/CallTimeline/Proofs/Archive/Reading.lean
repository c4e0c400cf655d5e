import CallTimeline.Proofs.Archive
import CallTimeline.Proofs.FileTree.WorkingDirectory
import CallTimeline.Proofs.Source.Records

namespace CallTimeline

open Json Source

def Fault.isValueFault (fault : Fault) : Bool :=
  match fault with
  | .notDatabase _ | .invalidRecord .. => true
  | fault => fault.isMisfit

namespace Archive

def databasePath (archive : Archive) (path : String) : PlainPath :=
  if path.isEmpty then archive.directory.child databaseFile else PlainPath.ofText path

inductive Reads : Json → Except Fault Locations → Prop
  | named {fields : Fields} {locations : Locations}
      (names : locations.map (·.1) = fields.map fun field => .str field.1)
      (known : ∀ entry ∈ locations, entry.2.function = entry.1)
      (ending : ∀ field ∈ fields, ¬ IsEndless field.2) : Reads (.obj fields) (.ok locations)
  | refused {value : Json} {fault : Fault} (kind : fault.isValueFault = true) :
      Reads value (.error fault)
  | infinite {fields : Fields} {field : String × Json} (member : field ∈ fields)
      (endless : IsEndless field.2) : Reads (.obj fields) (.error .infinityAsInteger)

section

variable {path : String} {bytes : List UInt8} {text : List Char} {value : Json}

theorem isValueFault_recordFault {fault : Fault}
    (kind : fault.isMisfit = true ∨ fault.isMisshapen = true) :
    (recordFault path fault).isValueFault = true := by
  obtain kind | kind := kind
  all_goals cases fault <;> first | rfl | cases kind

theorem reads_ofFields (path : String) (fields : Fields) :
    Reads (.obj fields) ((Locations.ofFields fields).mapError (recordFault path)) := by
  cases read : Locations.ofFields fields with
  | ok locations =>
      obtain ⟨names, known⟩ := named_of_ofFields read
      exact .named names known (not_isEndless_of_ofFields read)
  | error fault =>
      cases faultsIn_ofFields fields fault read with
      | misfit kind => exact .refused (isValueFault_recordFault (.inl kind))
      | misshapen kind => exact .refused (isValueFault_recordFault (.inr kind))
      | infinite there =>
          obtain ⟨field, member, endless⟩ := there
          exact .infinite member endless

theorem reads_parseDatabase (decodes : Text.Utf8.decode? bytes = some text)
    (parses : Json.read .wide (Text.unifyLineEnds text) = .ok value) :
    Reads value (parseDatabase path bytes) := by
  rw [parseDatabase, decodes]
  dsimp only
  rw [parses]
  cases value with
  | obj fields => exact reads_ofFields path fields
  | _ => exact .refused rfl

theorem result_readDatabase_file {archive : Archive} {session : Session}
    (file : session.tree.read (archive.databasePath path).text = .ok bytes) :
    (archive.readDatabase path).result session =
      (parseDatabase (archive.databasePath path).text bytes, session) := by
  show (Work.contents (archive.databasePath path).text >>= fun bytes =>
    liftM (parseDatabase (archive.databasePath path).text bytes) : Work Locations).result session = _
  rw [Work.result_contents_bind file, Work.result_lift]

end

/-- The file of a database that holds a value comes to what the value comes to, and nothing is
changed by reading it. -/
theorem readDatabase_reads (archive : Archive) (path : String) (session : Session)
    {bytes : List UInt8} {text : List Char} {value : Json}
    (file : session.tree.read (archive.databasePath path).text = .ok bytes)
    (decodes : Text.Utf8.decode? bytes = some text)
    (parses : Json.read .wide (Text.unifyLineEnds text) = .ok value) :
    ∃ outcome, (archive.readDatabase path).result session = (outcome, session) ∧
      Reads value outcome :=
  ⟨_, result_readDatabase_file file, reads_parseDatabase decodes parses⟩

def databaseSession (bytes : List UInt8) : Session :=
  { emptySession with
    tree := { root := .dir [("db.json", .file bytes)], workingDirectory := [] } }

theorem databaseSession_read (bytes : List UInt8) :
    (databaseSession bytes).tree.read (workingArchive.databasePath "db.json").text = .ok bytes := by
  have path : (workingArchive.databasePath "db.json").text = "db.json" := by decide +kernel
  rw [path]
  exact FileTree.read_of_lookup rfl ⟨by decide, by decide, by decide, by decide⟩
    (String.contains_char_eq.trans (by decide)) (by decide +kernel) rfl

def roughDatabase : String :=
  "\x7b\"f\": \x7b\"file\": \"net/a.c\", \"line\": \" 1_2 \"\x7d, " ++
    "\"g\": \x7b\"file\": null, \"line\": 4.5, \"all_matches\": [\"a7\"]\x7d\x7d"

theorem readDatabase_reads_rough :
    let session := databaseSession (Text.Utf8.encode roughDatabase)
    ∃ value locations, Json.read .wide (Text.unifyLineEnds roughDatabase.toList) = .ok value ∧
      (workingArchive.readDatabase "db.json").result session = (.ok locations, session) ∧
      Reads value (.ok locations) ∧
      locations.map (fun entry => (entry.2.line, entry.2.candidates.map (·.2))) =
        [(12, []), (4, [7])] := by
  intro session
  have file := databaseSession_read (Text.Utf8.encode roughDatabase)
  have decodes := Text.Utf8.decode?_encode roughDatabase
  have parsed : (Json.read .wide (Text.unifyLineEnds roughDatabase.toList)).toOption.isSome = true := by
    decide +kernel
  have lines : (parseDatabase (workingArchive.databasePath "db.json").text
      (Text.Utf8.encode roughDatabase)).toOption.map (List.map fun entry =>
        (entry.2.line, entry.2.candidates.map (·.2))) = some [(12, []), (4, [7])] := by
    decide +kernel
  obtain ⟨locations, there, lines⟩ := Option.map_eq_some_iff.mp lines
  have reads := (result_readDatabase_file file).trans (congrArg (·, _) (toOption_eq_some.mp there))
  obtain ⟨value, parses⟩ := Option.isSome_iff_exists.mp parsed
  obtain ⟨outcome, comes, holds⟩ :=
    readDatabase_reads workingArchive "db.json" session file decodes (toOption_eq_some.mp parses)
  obtain rfl := congrArg Prod.fst (comes.symm.trans reads)
  exact ⟨value, locations, toOption_eq_some.mp parses, comes, holds, lines⟩

def endlessDatabase : String :=
  "\x7b\"f\": \x7b\"file\": \"net/a.c\", \"line\": 1e999\x7d\x7d"

theorem readDatabase_endless :
    let session := databaseSession (Text.Utf8.encode endlessDatabase)
    session.tree.read (workingArchive.databasePath "db.json").text =
        .ok (Text.Utf8.encode endlessDatabase) ∧
      (∃ value, Json.read .wide (Text.unifyLineEnds endlessDatabase.toList) = .ok value) ∧
      (workingArchive.readDatabase "db.json").result session =
        (.error .infinityAsInteger, session) ∧
      Fault.isValueFault .infinityAsInteger = false := by
  intro session
  have file := databaseSession_read (Text.Utf8.encode endlessDatabase)
  have parsed : (Json.read .wide (Text.unifyLineEnds endlessDatabase.toList)).toOption.isSome = true := by
    decide +kernel
  have fails : (parseDatabase (workingArchive.databasePath "db.json").text
      (Text.Utf8.encode endlessDatabase)).map (fun _ => ()) = .error .infinityAsInteger := by
    decide +kernel
  obtain ⟨value, parses⟩ := Option.isSome_iff_exists.mp parsed
  refine ⟨file, ⟨value, toOption_eq_some.mp parses⟩, ?_, rfl⟩
  refine (result_readDatabase_file file).trans (congrArg (·, _) ?_)
  cases outcome : parseDatabase (workingArchive.databasePath "db.json").text
      (Text.Utf8.encode endlessDatabase) with
  | ok locations => rw [outcome] at fails; cases fails
  | error fault => rw [outcome] at fails; cases fails; rfl

end Archive

end CallTimeline
