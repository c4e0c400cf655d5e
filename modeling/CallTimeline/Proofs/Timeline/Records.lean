import CallTimeline.Proofs.Json.Convert

namespace CallTimeline

open Json

def Json.Fields.SpellsAt (fields : Fields) (key : String) (n : Int) : Prop :=
  ∃ value, fields.get? key = some value ∧ value.SpellsInt n

theorem Kind.ofJson_eq_ok {value : Json} {kind : Kind} :
    Kind.ofJson value = .ok kind ↔ value = .str kind.word := by
  apply toWord_eq_ok
  · intro a b
    cases a <;> cases b <;> decide
  · intro a
    cases a <;> decide

theorem Direction.ofJson_eq_ok {value : Json} {direction : Direction} :
    Direction.ofJson value = .ok direction ↔ value = .str direction.word := by
  apply toWord_eq_ok
  · intro a b
    cases a <;> cases b <;> decide
  · intro a
    cases a <;> decide

namespace Frame

structure Recorded (fields : Fields) (frame : Frame Json) : Prop where
  function : fields.get? "function" = some frame.function
  depth : fields.SpellsAt "depth" frame.depth
  file : (fields.get? "file").getD (.str "") = frame.file
  line : ((fields.get? "line").getD (.int 1)).SpellsInt frame.line

theorem ofJson_obj {fields : Fields} {frame : Frame Json} :
    Frame.ofJson (.obj fields) = .ok frame ↔ Recorded fields frame := by
  simp only [Frame.ofJson, bind_eq_ok, field_obj, fieldD_obj, Except.ok.injEq,
    exists_eq_left', toInt_eq_ok, pure_eq_ok]
  constructor
  · rintro ⟨function, function_eq, value, there, depth, depth_eq, line, line_eq, rfl⟩
    exact ⟨function_eq, ⟨value, there, depth_eq⟩, rfl, line_eq⟩
  · rintro ⟨function, ⟨value, there, depth⟩, file, line⟩
    exact ⟨_, function, value, there, _, depth, _, line, by rw [file]⟩

theorem ofJson_eq_ok {record : Json} {frame : Frame Json} :
    Frame.ofJson record = .ok frame ↔ ∃ fields, record = .obj fields ∧ Recorded fields frame := by
  cases record with
  | obj fields => simp only [obj.injEq, exists_eq_left', ofJson_obj]
  | _ => exact ⟨nofun, nofun⟩

theorem ofJson_toJson (frame : Frame Json) : Frame.ofJson frame.toJson = .ok frame :=
  ofJson_obj.mpr ⟨rfl, ⟨_, rfl, .int _⟩, rfl, .int _⟩

end Frame

namespace Buffer

structure Recorded (fields : Fields) (buffer : Buffer) : Prop where
  address : fields.get? "sk_buff_addr" = some buffer.address
  dataLength : fields.SpellsAt "data_len" buffer.dataLength
  head : fields.get? "head" = some buffer.head
  data : fields.get? "data" = some buffer.data
  tail : fields.get? "tail" = some buffer.tail
  limit : fields.get? "end" = some buffer.limit
  protocol : fields.get? "protocol" = some buffer.protocol

theorem ofJson_obj {fields : Fields} {buffer : Buffer} :
    Buffer.ofJson (.obj fields) = .ok buffer ↔ Recorded fields buffer := by
  simp only [Buffer.ofJson, bind_eq_ok, field_obj, toInt_eq_ok, pure_eq_ok]
  constructor
  · rintro ⟨address, address_eq, value, there, dataLength, spells, head, head_eq, data, data_eq,
      tail, tail_eq, limit, limit_eq, protocol, protocol_eq, rfl⟩
    exact ⟨address_eq, ⟨value, there, spells⟩, head_eq, data_eq, tail_eq, limit_eq, protocol_eq⟩
  · rintro ⟨address, ⟨value, there, spells⟩, head, data, tail, limit, protocol⟩
    exact ⟨_, address, value, there, _, spells, _, head, _, data, _, tail, _, limit, _, protocol, rfl⟩

theorem ofJson_eq_ok {record : Json} {buffer : Buffer} :
    Buffer.ofJson record = .ok buffer ↔ ∃ fields, record = .obj fields ∧ Recorded fields buffer := by
  cases record with
  | obj fields => simp only [obj.injEq, exists_eq_left', ofJson_obj]
  | _ => exact ⟨nofun, nofun⟩

theorem ofJson_toJson (buffer : Buffer) : Buffer.ofJson buffer.toJson = .ok buffer :=
  ofJson_obj.mpr ⟨rfl, ⟨_, rfl, .int _⟩, rfl, rfl, rfl, rfl, rfl⟩

end Buffer

namespace Entry

/-- What the fields of a record spell, or what stands for them, is what an entry has. -/
structure Recorded (fields : Fields) (entry : Entry) : Prop where
  step : fields.SpellsAt "step" entry.step
  timestamp : fields.SpellsAt "timestamp" entry.timestamp
  function : fields.get? "function" = some entry.function
  kind : fields.get? "event_type" = some (.str entry.kind.word)
  flow : fields.get? "flow_direction" = some (.str entry.flow.word)
  classified : (fields.get? "classified_direction").getD (.str entry.flow.word) =
    .str entry.classified.word
  stack : ∃ items, ((fields.get? "call_stack").getD (.arr [])).parts? = some items ∧
    List.Forall₂ (fun item frame => ∃ fields, item = .obj fields ∧ Frame.Recorded fields frame) items
      entry.stack
  buffer : ∃ fields', fields.get? "buffer_state" = some (.obj fields') ∧
    Buffer.Recorded fields' entry.buffer
  duration : ((fields.get? "duration_us").getD (.real 0.0)).SpellsReal entry.duration
  source : ∃ fields' : Fields, (fields.get? "source_info").getD (.obj []) = .obj fields' ∧
    (fields'.get? "file").getD (.str "") = entry.file ∧
    ((fields'.get? "line").getD (.int 1)).SpellsInt entry.line ∧
    (fields'.get? "context").getD (.str "") = entry.context
  cpu : ((fields.get? "cpu").getD (.int 0)).SpellsInt entry.cpu
  task : (fields.get? "task").getD (.str "") = entry.task

theorem ofJson_obj {fields : Fields} {entry : Entry} :
    Entry.ofJson (.obj fields) = .ok entry ↔ Recorded fields entry := by
  simp only [Entry.ofJson, bind_eq_ok, field_obj, fieldD_obj, Except.ok.injEq,
    exists_eq_left', toInt_eq_ok, toReal_eq_ok, Kind.ofJson_eq_ok, Direction.ofJson_eq_ok,
    Buffer.ofJson_eq_ok, parts_eq_ok, mapM_eq_ok_iff, Frame.ofJson_eq_ok, pure_eq_ok]
  constructor
  · rintro ⟨step, step_there, _, step_eq, timestamp, timestamp_there, _, timestamp_eq, function,
      function_eq, _, kind_there, kind, rfl, _, flow_there, flow, rfl, _, again, classified,
      classified_eq, items, parts, stack, frames, _, buffer_there, buffer, ⟨parts', rfl, buffer_eq⟩,
      duration, duration_eq, file, file_eq, value, line_there, line, line_eq, context, context_eq,
      cpu, cpu_eq, rfl⟩
    obtain ⟨fields', source, rfl⟩ := fieldD_eq_ok.mp file_eq
    rw [source] at line_there context_eq
    cases line_there
    cases context_eq
    -- The direction on display is read twice: the second time, to stand for the classified one.
    cases flow_there.symm.trans again
    exact {
      step := ⟨step, step_there, step_eq⟩
      timestamp := ⟨timestamp, timestamp_there, timestamp_eq⟩
      function := function_eq
      kind := kind_there
      flow := flow_there
      classified := classified_eq
      stack := ⟨items, parts, frames⟩
      buffer := ⟨parts', buffer_there, buffer_eq⟩
      duration := duration_eq
      source := ⟨fields', source, rfl, line_eq, rfl⟩
      cpu := cpu_eq
      task := rfl }
  · intro recorded
    obtain ⟨step, step_there, step_eq⟩ := recorded.step
    obtain ⟨timestamp, timestamp_there, timestamp_eq⟩ := recorded.timestamp
    obtain ⟨items, parts, frames⟩ := recorded.stack
    obtain ⟨parts', buffer_there, buffer_eq⟩ := recorded.buffer
    obtain ⟨fields', source, file, line, context⟩ := recorded.source
    -- The witnesses stand in the order in which the fields are read.
    refine ⟨step, step_there, _, step_eq, timestamp, timestamp_there, _, timestamp_eq, _,
      recorded.function, _, recorded.kind, _, rfl, _, recorded.flow, _, rfl, _, recorded.flow, _,
      recorded.classified, items, parts, _, frames, _, buffer_there, _, ⟨parts', rfl, buffer_eq⟩, _,
      recorded.duration, _, fieldD_eq_ok.mpr ⟨fields', source, file⟩, _,
      fieldD_eq_ok.mpr ⟨fields', source, rfl⟩, _, line, _,
      fieldD_eq_ok.mpr ⟨fields', source, context⟩, _, recorded.cpu, ?_⟩
    rw [recorded.task]

theorem ofJson_eq_ok {record : Json} {entry : Entry} :
    Entry.ofJson record = .ok entry ↔ ∃ fields, record = .obj fields ∧ Recorded fields entry := by
  cases record with
  | obj fields => simp only [obj.injEq, exists_eq_left', ofJson_obj]
  | _ => exact ⟨nofun, nofun⟩

theorem ofJson_toJson (entry : Entry) : Entry.ofJson entry.toJson = .ok entry := by
  have frames : List.Forall₂ (fun item frame => ∃ fields, item = .obj fields ∧
      Frame.Recorded fields frame) (entry.stack.map Frame.toJson) entry.stack := by
    rw [List.forall₂_map_left_iff, List.forall₂_same]
    exact fun frame _ => Frame.ofJson_eq_ok.mp frame.ofJson_toJson
  exact ofJson_obj.mpr {
    step := ⟨_, rfl, .int _⟩
    timestamp := ⟨_, rfl, .int _⟩
    function := rfl
    kind := rfl
    flow := rfl
    classified := rfl
    stack := ⟨_, rfl, frames⟩
    buffer := ⟨_, rfl, Buffer.ofJson_obj.mp entry.buffer.ofJson_toJson⟩
    duration := .real _
    source := ⟨_, rfl, rfl, .int _, rfl⟩
    cpu := .int _
    task := rfl }

/-- A record as it is written for the entry that it is read to. -/
def normalize (record : Json) : Except Fault Json :=
  (Entry.ofJson record).map toJson

/-- What is written for an entry is read to the entry. A record that is read to an entry has a
normal form, which is read to the same entry and is its own normal form. -/
theorem ofJson_normalizes (record : Json) (entry : Entry) :
    Entry.ofJson entry.toJson = .ok entry ∧
      (Entry.ofJson record = .ok entry ↔ ∃ fields, record = .obj fields ∧ Recorded fields entry) ∧
      (Entry.ofJson record = .ok entry → normalize record = .ok entry.toJson ∧
        Entry.ofJson entry.toJson = Entry.ofJson record ∧
        normalize entry.toJson = .ok entry.toJson) := by
  refine ⟨entry.ofJson_toJson, ofJson_eq_ok, fun read => ⟨?_, ?_, ?_⟩⟩
  · rw [normalize, read]
    rfl
  · rw [read, ofJson_toJson]
  · rw [normalize, ofJson_toJson]
    rfl

def roughRecord : Json :=
  .obj [("function", .str "f"), ("step", .str " 1_0 "),
    ("timestamp", .real (Double.nearest true 49 10)), ("event_type", .str "call"),
    ("flow_direction", .str "RECEIVE"), ("duration_us", .int 3),
    ("call_stack", .arr [.obj [("function", .null), ("depth", .bool true)]]),
    ("buffer_state", .obj [("protocol", .str "IP"), ("data_len", .bool false), ("head", .null),
      ("data", .null), ("tail", .null), ("end", .null), ("sk_buff_addr", .int 0)])]

def roughEntry : Entry where
  step := 10
  timestamp := -4
  function := .str "f"
  kind := .call
  flow := .receive
  classified := .receive
  stack := [{ function := .null, depth := 1, file := .str "", line := 1 }]
  buffer := {
    address := .int 0
    dataLength := 0
    head := .null
    data := .null
    tail := .null
    limit := .null
    protocol := .str "IP" }
  duration := Double.ofInt 3
  file := .str ""
  line := 1
  context := .str ""
  cpu := 0
  task := .str ""

theorem ofJson_normalizes_rough :
    Entry.ofJson roughRecord = .ok roughEntry ∧ normalize roughRecord = .ok roughEntry.toJson ∧
      Entry.ofJson roughEntry.toJson = .ok roughEntry := by
  have frame : Frame.Recorded [("function", .null), ("depth", .bool true)]
      { function := .null, depth := 1, file := .str "", line := 1 } :=
    ⟨rfl, ⟨_, rfl, .bool true⟩, rfl, .int 1⟩
  have recorded : ∃ fields, roughRecord = .obj fields ∧ Recorded fields roughEntry := by
    refine ⟨_, rfl, {
      step := ⟨_, rfl, .str (by decide +kernel)⟩
      timestamp := ⟨_, rfl, .real (by decide +kernel)⟩
      function := rfl
      kind := rfl
      flow := rfl
      classified := rfl
      stack := ⟨_, rfl, .cons ⟨_, rfl, frame⟩ .nil⟩
      buffer := ⟨_, rfl, rfl, ⟨_, rfl, .bool false⟩, rfl, rfl, rfl, rfl, rfl⟩
      duration := .int (by decide +kernel)
      source := ⟨_, rfl, rfl, .int 1, rfl⟩
      cpu := .int 0
      task := rfl }⟩
  obtain ⟨back, read_iff, normal⟩ := ofJson_normalizes roughRecord roughEntry
  have read := read_iff.mpr recorded
  exact ⟨read, (normal read).1, back⟩

end Entry

end CallTimeline
