import CallTimeline.Proofs.Trace.Layout

/-!
# Call forests

A trace without gaps is the written form of a forest of calls (`layoutForest`): a leaf is one line, a
call with calls inside it is a line before them and a line behind them. `run_layoutForest` says that a
replay of such a trace gives back the calls in pre-order, numbered from one, each with the calls
around it.

The proof goes through the readings of the lines. `mapM_layoutForest` reads the trace, and
`readAll_forest` replays the readings: a whole forest leaves the open calls as they were.
-/

namespace CallTimeline.Trace

open Text

inductive CallTree where
  | leaf (name : FunctionName) (lead : Lead)
  | node (name : FunctionName) (opening : Lead) (calls : List CallTree) (closing : Lead)

mutual

def CallTree.layout (width depth : Nat) : CallTree → List (List Char)
  | .leaf name lead => [lead.layout (depth * width) name.leafBody]
  | .node name opening calls closing =>
      opening.layout (depth * width) name.entryBody ::
        (layoutForest width (depth + 1) calls ++ [closing.layout (depth * width) exitBody])

def layoutForest (width depth : Nat) : List CallTree → List (List Char)
  | [] => []
  | tree :: rest => tree.layout width depth ++ layoutForest width depth rest

end

example : (CallTree.node ⟨['f'], by decide, List.forall_mem_singleton.mpr (by decide)⟩
    ⟨0, ['t'], [], by decide, by decide, by decide⟩
    [.leaf ⟨['g'], by decide, List.forall_mem_singleton.mpr (by decide)⟩
      ⟨0, ['t'], "1 us".toList, by decide, by decide, by decide⟩]
    ⟨0, ['t'], "2 us".toList, by decide, by decide, by decide⟩).layout 2 0 =
    ["0)t||f() \x7b".toList, "0)t|1 us|  g();".toList, "0)t|2 us|\x7d".toList] := by decide

section

variable (settings : Settings)

def eventOf (around : List (Frame String)) (name : FunctionName) (kind : Kind) (lead : Lead)
    (column : Option (List Char)) : Event where
  seq := 0
  function := name.toString
  kind := kind
  depth := around.length
  stack := around ++ [Replay.frameOf settings name.toString around.length]
  cpu := lead.cpu
  task := String.ofList (trim lead.task)
  duration := column.map duration

mutual

/-- The calls of a tree in pre-order. The duration of a call stands on its last line. -/
def CallTree.events (around : List (Frame String)) : CallTree → List Event
  | .leaf name lead => [eventOf settings around name .call lead (some lead.duration)]
  | .node name opening calls closing =>
      eventOf settings around name .entry opening (some closing.duration) ::
        forestEvents (around ++ [Replay.frameOf settings name.toString around.length]) calls

def forestEvents (around : List (Frame String)) : List CallTree → List Event
  | [] => []
  | tree :: rest => tree.events around ++ forestEvents around rest

end

def numbered (first : Nat) (events : List Event) : List Event :=
  (events.zipIdx first).map fun (event, seq) => { event with seq }

end

section

variable (settings : Settings)

mutual

def CallTree.readings (depth : Nat) : CallTree → List Reading
  | .leaf name lead =>
      [.call (lead.columns (depth * settings.indentWidth) name.leafBody) depth name.toString]
  | .node name opening calls closing =>
      .enter (opening.columns (depth * settings.indentWidth) name.entryBody) depth name.toString ::
        (forestReadings (depth + 1) calls ++
          [.leave (closing.columns (depth * settings.indentWidth) exitBody) depth])

def forestReadings (depth : Nat) : List CallTree → List Reading
  | [] => []
  | tree :: rest => tree.readings depth ++ forestReadings depth rest

end

theorem depth_of_indent (depth : Nat) : depth * settings.indentWidth / settings.indentWidth = depth :=
  Nat.mul_div_cancel depth settings.indentWidth_pos

theorem ofLine_leaf (name : FunctionName) (lead : Lead) (depth : Nat) :
    Reading.ofLine settings (lead.layout (depth * settings.indentWidth) name.leafBody) =
      .ok (.call (lead.columns (depth * settings.indentWidth) name.leafBody) depth name.toString) := by
  rw [Reading.ofLine_of_columns settings (ofLine_layout lead _ name.isBody_leafBody),
    Reading.ofColumns]
  simp only [Lead.columns, name.read?_leafBody, name.functionName_chars, depth_of_indent]
  rfl

theorem ofLine_entry (name : FunctionName) (lead : Lead) (depth : Nat) :
    Reading.ofLine settings (lead.layout (depth * settings.indentWidth) name.entryBody) =
      .ok (.enter (lead.columns (depth * settings.indentWidth) name.entryBody) depth
        name.toString) := by
  rw [Reading.ofLine_of_columns settings (ofLine_layout lead _ name.isBody_entryBody),
    Reading.ofColumns]
  simp only [Lead.columns, name.read?_entryBody, name.functionName_chars, depth_of_indent]
  rfl

theorem ofLine_exit (lead : Lead) (depth : Nat) :
    Reading.ofLine settings (lead.layout (depth * settings.indentWidth) exitBody) =
      .ok (.leave (lead.columns (depth * settings.indentWidth) exitBody) depth) := by
  rw [Reading.ofLine_of_columns settings (ofLine_layout lead _ isBody_exitBody), Reading.ofColumns]
  simp only [Lead.columns, read?_exitBody, depth_of_indent]

mutual

theorem CallTree.mapM_layout (depth : Nat) (tree : CallTree) :
    (tree.layout settings.indentWidth depth).mapM (Reading.ofLine settings) =
      .ok (tree.readings settings depth) := by
  cases tree with
  | leaf name lead =>
      rw [CallTree.layout, List.mapM_cons, ofLine_leaf]
      rfl
  | node name opening calls closing =>
      rw [CallTree.layout, List.mapM_cons, List.mapM_append, List.mapM_cons, ofLine_entry,
        ofLine_exit, mapM_layoutForest (depth + 1) calls]
      rfl

theorem mapM_layoutForest (depth : Nat) (forest : List CallTree) :
    (layoutForest settings.indentWidth depth forest).mapM (Reading.ofLine settings) =
      .ok (forestReadings settings depth forest) := by
  cases forest with
  | nil => rfl
  | cons tree rest =>
      rw [layoutForest, List.mapM_append, tree.mapM_layout depth, mapM_layoutForest depth rest]
      rfl

end

end

theorem numbered_cons (first : Nat) (event : Event) (events : List Event) :
    numbered first (event :: events) = { event with seq := first } :: numbered (first + 1) events :=
  rfl

theorem length_numbered (first : Nat) (events : List Event) :
    (numbered first events).length = events.length := by
  simp [numbered]

theorem numbered_append (first : Nat) (xs ys : List Event) :
    numbered first (xs ++ ys) = numbered first xs ++ numbered (first + xs.length) ys := by
  simp [numbered, List.zipIdx_append]

attribute [ext] Replay

namespace Replay

variable {settings : Settings} {replay : Replay} {around : List (Frame String)}

def extend (replay : Replay) (lines : Nat) (events : List Event) : Replay :=
  { replay with
    linesRead := replay.linesRead + lines
    events := replay.events ++ (numbered (replay.events.size + 1) events).toArray }

theorem extend_extend (m n : Nat) (xs ys : List Event) :
    (replay.extend m xs).extend n ys = replay.extend (m + n) (xs ++ ys) := by
  simp [extend, numbered_append, length_numbered, Nat.add_assoc, Nat.add_left_comm, Nat.add_comm]

structure Inside (replay : Replay) (around : List (Frame String)) : Prop where
  frames : replay.openCalls.map (·.frame) = around
  above : ∀ call ∈ replay.openCalls, call.frame.depth < around.length

theorem Inside.extend (h : replay.Inside around) (lines : Nat) (events : List Event) :
    (replay.extend lines events).Inside around :=
  ⟨h.frames, h.above⟩

theorem Inside.stackAbove (h : replay.Inside around) :
    replay.stackAbove around.length = replay.openCalls :=
  List.filter_eq_self.mpr fun call member => decide_eq_true (h.above call member)

theorem Inside.openCalls_enter (h : replay.Inside around) (columns : Columns) (function : String) :
    (replay.read settings (.enter columns around.length function)).openCalls =
      replay.openCalls ++ [⟨frameOf settings function around.length, replay.events.size⟩] := by
  rw [← h.stackAbove]
  rfl

theorem Inside.enter (h : replay.Inside around) (columns : Columns) (function : String) :
    (replay.read settings (.enter columns around.length function)).Inside
      (around ++ [frameOf settings function around.length]) where
  frames := by
    rw [h.openCalls_enter, List.map_append, h.frames]
    rfl
  above call member := by
    rw [h.openCalls_enter] at member
    rw [List.length_append, List.length_singleton]
    rcases List.mem_append.mp member with member | member
    · have := h.above call member
      omega
    · rw [List.mem_singleton.mp member]
      simp only [frameOf]
      omega

theorem Inside.nextEvent (h : replay.Inside around) (settings : Settings) (lead : Lead)
    (indent : Nat) (body : List Char) (name : FunctionName) (kind : Kind)
    (column : Option (List Char)) :
    replay.nextEvent settings (lead.columns indent body) name.toString kind around.length
        (column.map Trace.duration) =
      { eventOf settings around name kind lead column with seq := replay.events.size + 1 } := by
  simp [Replay.nextEvent, h.stackAbove, h.frames, eventOf, Lead.columns]

theorem Inside.read_call (h : replay.Inside around) (lead : Lead) (indent : Nat) (body : List Char)
    (name : FunctionName) :
    replay.read settings (.call (lead.columns indent body) around.length name.toString) =
      replay.extend 1 [eventOf settings around name .call lead (some lead.duration)] := by
  have event := h.nextEvent settings lead indent body name .call (some lead.duration)
  rw [Option.map_some] at event
  change { replay with
    linesRead := replay.linesRead + 1
    events := replay.events.push (replay.nextEvent settings (lead.columns indent body) name.toString
      .call around.length (some (Trace.duration lead.duration))) } = _
  rw [event]
  simp [Replay.extend, numbered]

theorem Inside.events_enter (h : replay.Inside around) (lead : Lead) (indent : Nat)
    (body : List Char) (name : FunctionName) :
    (replay.read settings (.enter (lead.columns indent body) around.length name.toString)).events =
      replay.events.push
        { eventOf settings around name .entry lead none with seq := replay.events.size + 1 } := by
  have event := h.nextEvent settings lead indent body name .entry none
  rw [Option.map_none] at event
  change replay.events.push (replay.nextEvent settings (lead.columns indent body) name.toString
    .entry around.length none) = _
  rw [event]

theorem modify_append_cons {α : Type} (xs ys : List α) (a : α) (f : α → α) :
    (xs ++ a :: ys).modify xs.length f = xs ++ f a :: ys := by
  rw [List.modify_eq_take_cons_drop (by simp)]
  simp

theorem read_leave_of_closing {depth : Nat} {call : OpenCall} (columns : Columns)
    (closes : replay.closing? depth = some call) :
    replay.read settings (.leave columns depth) =
      { replay with
        linesRead := replay.linesRead + 1
        events := replay.events.modify call.event fun event =>
          { event with duration := some (duration columns.duration) }
        openCalls := replay.stackAbove depth } := by
  have counted : closing? { replay with linesRead := replay.linesRead + 1 } depth = some call :=
    closes
  simp only [read, leave, counted]
  rfl

/-- The exit of a call writes the duration into its entry, which is the innermost open call however
many events came since. -/
theorem Inside.read_leave (h : replay.Inside around) (opening closing : Lead) (i j : Nat)
    (body body' : List Char) (name : FunctionName) (lines : Nat) (events : List Event) :
    ((replay.read settings (.enter (opening.columns i body) around.length name.toString)).extend
        lines events).read settings (.leave (closing.columns j body') around.length) =
      replay.extend (lines + 2)
        (eventOf settings around name .entry opening (some closing.duration) :: events) := by
  let entered := replay.read settings (.enter (opening.columns i body) around.length name.toString)
  let entry : Event :=
    { eventOf settings around name .entry opening none with seq := replay.events.size + 1 }
  let call : OpenCall := ⟨frameOf settings name.toString around.length, replay.events.size⟩
  have calls : entered.openCalls = replay.openCalls ++ [call] := h.openCalls_enter _ _
  have shown : (entered.extend lines events).events.toList =
      replay.events.toList ++ entry :: numbered (replay.events.size + 2) events := by
    simp [Replay.extend, entered, h.events_enter, entry]
  have closes : (entered.extend lines events).closing? around.length = some call := by
    have unset : (entered.extend lines events).events[call.event]? = some entry := by
      rw [← Array.getElem?_toList, shown]
      simp [call]
    simp only [closing?, Replay.extend] at unset ⊢
    rw [calls, List.reverse_append, List.reverse_singleton, List.singleton_append,
      List.find?_cons_of_pos]
    rw [unset]
    simp [call, frameOf, entry, eventOf]
  have above : (entered.extend lines events).stackAbove around.length = replay.openCalls := by
    rw [← h.stackAbove, Replay.stackAbove, Replay.stackAbove]
    simp [Replay.extend, calls, call, frameOf]
  rw [read_leave_of_closing _ closes, above]
  apply Replay.ext
  · change replay.linesRead + 1 + lines + 1 = replay.linesRead + (lines + 2)
    omega
  · rfl
  · have index : call.event = replay.events.toList.length := Array.length_toList.symm
    apply Array.ext'
    rw [Array.toList_modify, shown, index, modify_append_cons]
    simp [Replay.extend, numbered_cons, entry, eventOf, Lead.columns]
  · rfl

end Replay

section

variable {settings : Settings}

mutual

theorem CallTree.readAll (tree : CallTree) {replay : Replay} {around : List (Frame String)}
    (h : replay.Inside around) :
    replay.readAll settings (tree.readings settings around.length) =
      replay.extend (tree.readings settings around.length).length (tree.events settings around) := by
  cases tree with
  | leaf name lead => exact h.read_call lead _ _ name
  | node name opening calls closing =>
      have below := readAll_forest calls (@Replay.Inside.enter settings replay around h
        (opening.columns (around.length * settings.indentWidth) name.entryBody) name.toString)
      rw [List.length_append, List.length_singleton] at below
      rw [CallTree.readings, Replay.readAll_cons, Replay.readAll_append, below, Replay.readAll_cons,
        Replay.readAll_nil, h.read_leave, CallTree.events]
      simp

theorem readAll_forest (forest : List CallTree) {replay : Replay} {around : List (Frame String)}
    (h : replay.Inside around) :
    replay.readAll settings (forestReadings settings around.length forest) =
      replay.extend (forestReadings settings around.length forest).length
        (forestEvents settings around forest) := by
  cases forest with
  | nil => simp [forestReadings, forestEvents, Replay.extend, numbered]
  | cons tree rest =>
      rw [forestReadings, Replay.readAll_append, tree.readAll h, readAll_forest rest (h.extend _ _),
        Replay.extend_extend, List.length_append, forestEvents]

end

end

/-- Replaying undoes laying out. -/
theorem Replay.run_layoutForest (settings : Settings) (forest : List CallTree) :
    run settings (layoutForest settings.indentWidth 0 forest) =
      .ok {
        linesRead := (layoutForest settings.indentWidth 0 forest).length
        linesSkipped := 0
        events := (numbered 1 (forestEvents settings [] forest)).toArray
        openCalls := [] } := by
  have read := mapM_layoutForest settings 0 forest
  have outside : Inside {} [] := ⟨rfl, by simp⟩
  have replayed : readAll settings {} (forestReadings settings 0 forest) =
      extend {} (forestReadings settings 0 forest).length (forestEvents settings [] forest) :=
    readAll_forest forest outside
  rw [run_eq, read, ← length_of_mapM_ok read, Except.map, replayed]
  simp [extend]

end CallTimeline.Trace
