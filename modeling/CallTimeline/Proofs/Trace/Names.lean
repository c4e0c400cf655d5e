import CallTimeline.Proofs.Trace.Forms
import CallTimeline.Proofs.Trace.Layout
import CallTimeline.Proofs.Trace.Stacks

namespace CallTimeline.Trace

open Text

structure Named (token name : List Char) : Prop where
  filled : name ≠ []
  chars : ∀ c ∈ name, isTokenChar c = true
  tag : ∃ tag, token = name ++ tag ∧ ∀ c ∈ tag.head?, isBlank c = true

theorem IsToken.exists_named {token : List Char} (isToken : IsToken token) :
    ∃ name, Named token name ∧ ∀ rest, name.head? = (token ++ rest).head? := by
  obtain @⟨name, tag, filled, chars, tagged⟩ := isToken
  refine ⟨name, ⟨filled, chars, tag, rfl, ?_⟩, fun rest => ?_⟩
  · rcases tagged with rfl | isTag
    · simp
    · obtain ⟨c, first, blank⟩ := isTag.head?
      simpa [first] using blank
  · obtain ⟨c, more, rfl⟩ := List.exists_cons_of_ne_nil filled
    rfl

theorem Signed.exists_named {token rest body : List Char} (signed : Signed token rest body) :
    ∃ name, Named token name ∧ name.head? = body.head? := by
  obtain @⟨gap, isToken, -⟩ := signed
  obtain ⟨name, named, front⟩ := isToken.exists_named
  exact ⟨name, named, front _⟩

theorem named_of_read? {body token : List Char}
    (h : Body.read? body = some (.enter token) ∨ Body.read? body = some (.call token)) :
    ∃ name, Named token name ∧ name.head? = body.head? := by
  unfold Body.read? at h
  cases enters : enter? body with
  | some token' =>
      simp only [enters, Option.some.injEq, Body.enter.injEq, reduceCtorEq, or_false] at h
      obtain ⟨rest, signed, -⟩ := enter?_iff_signed.mp (h ▸ enters)
      exact signed.exists_named
  | none =>
      simp only [enters] at h
      split at h
      · simp at h
      · simp only [Option.map_eq_some_iff, reduceCtorEq, and_false, exists_false, Body.call.injEq,
          exists_eq_right, false_or] at h
        obtain ⟨rest, signed, -⟩ := call?_iff_signed.mp h
        exact signed.exists_named

theorem isBlank_of_isTokenChar {c : Char} (h : isTokenChar c = true) : isBlank c = false := by
  simp only [isTokenChar, Bool.and_eq_true, Bool.not_eq_true'] at h
  exact h.1.1.1.1.1

theorem Named.functionName {token name : List Char} (h : Named token name) :
    functionName token = .ok (String.ofList (name.takeWhile (· != '['))) := by
  obtain ⟨tag, rfl, edge⟩ := h.tag
  rw [Trace.functionName,
    words_append h.filled (fun c member => isBlank_of_isTokenChar (h.chars c member)) edge]

def IsClean (function : String) : Prop :=
  function = "" ∨ ∃ name : FunctionName, function = name.toString

theorem Named.isClean {token name : List Char} (h : Named token name) :
    IsClean (String.ofList (name.takeWhile (· != '['))) := by
  by_cases filled : name.takeWhile (· != '[') = []
  · exact .inl (by rw [filled])
  · refine .inr ⟨⟨_, filled, fun c member => ?_⟩, rfl⟩
    have char := h.chars c (List.takeWhile_subset _ member)
    have noBracket := List.mem_takeWhile_imp member
    refine ⟨isBlank_of_isTokenChar char, ?_⟩
    simp only [isTokenChar, Bool.and_eq_true, bne_iff_ne] at char noBracket
    simp [char, noBracket]

theorem Named.eq_empty_iff {token name : List Char} (h : Named token name) :
    String.ofList (name.takeWhile (· != '[')) = "" ↔ name.head? = some '[' := by
  obtain ⟨c, more, rfl⟩ := List.exists_cons_of_ne_nil h.filled
  by_cases bracket : c = '[' <;> simp [bracket]

theorem functionName_of_read? {body token : List Char}
    (h : Body.read? body = some (.enter token) ∨ Body.read? body = some (.call token)) :
    ∃ function, functionName token = .ok function ∧ IsClean function ∧
      (function = "" ↔ body.head? = some '[') := by
  obtain ⟨name, named, front⟩ := named_of_read? h
  exact ⟨_, named.functionName, named.isClean, front ▸ named.eq_empty_iff⟩

namespace Reading

variable {settings : Settings}

def named? : Reading → Option (Columns × String)
  | .enter columns _ function => some (columns, function)
  | .call columns _ function => some (columns, function)
  | _ => none

theorem named?_ofColumns {columns : Columns} {reading : Reading} {named : Columns × String}
    (read : ofColumns settings columns = .ok reading) (names : reading.named? = some named) :
    named.1 = columns ∧ IsClean named.2 ∧ (named.2 = "" ↔ columns.body.head? = some '[') := by
  obtain ⟨-, rfl⟩ | ⟨-, rfl⟩ | ⟨token, function, name, forms⟩ := ofColumns_cases settings read
  · cases names
  · cases names
  · obtain ⟨function', name', facts⟩ := functionName_of_read? (forms.imp And.left And.left)
    obtain rfl : function = function' := Except.ok.inj (name.symm.trans name')
    obtain ⟨-, rfl⟩ | ⟨-, rfl⟩ := forms
    all_goals
      cases names
      exact ⟨rfl, facts⟩

theorem named?_ofLine {line : List Char} {reading : Reading} {named : Columns × String}
    (read : ofLine settings line = .ok reading) (names : reading.named? = some named) :
    Columns.ofLine line = .ok (some named.1) ∧ IsClean named.2 ∧
      (named.2 = "" ↔ named.1.body.head? = some '[') := by
  obtain ⟨columns, columns_eq, read⟩ := of_bind_ok read
  cases columns with
  | none =>
      cases read
      cases names
  | some columns =>
      obtain ⟨rfl, facts⟩ := named?_ofColumns read names
      exact ⟨columns_eq, facts⟩

end Reading

def isNameless (line : List Char) : Bool :=
  match Columns.ofLine line with
  | .ok (some columns) => columns.body.head? == some '['
  | _ => false

theorem isNameless_of_columns {line : List Char} {columns : Columns}
    (h : Columns.ofLine line = .ok (some columns)) :
    isNameless line = true ↔ columns.body.head? = some '[' := by
  simp [isNameless, h]

def Event.names (event : Event) : List String :=
  event.function :: event.stack.map (·.function)

namespace Replay

variable {settings : Settings} {replay : Replay} {lines : List (List Char)}

theorem functions_read (replay : Replay) (reading : Reading) :
    (replay.read settings reading).events.toList.map (·.function) =
      replay.events.toList.map (·.function) ++ (reading.named?.map Prod.snd).toList := by
  have functions (replay : Replay) :
      replay.events.toList.map (·.function) = replay.snapshots.map (·.function) := by
    rw [snapshots, List.map_map]
    rfl
  rw [functions, functions, snapshots_read, List.map_append]
  cases reading <;> rfl

theorem functions_readAll (replay : Replay) (readings : List Reading) :
    (replay.readAll settings readings).events.toList.map (·.function) =
      replay.events.toList.map (·.function) ++
        (readings.filterMap Reading.named?).map Prod.snd := by
  induction readings generalizing replay with
  | nil => simp
  | cons reading rest ih =>
      rw [readAll_cons, ih, functions_read]
      cases names : reading.named? <;> simp [names]

theorem exists_event_of_name (h : run settings lines = .ok replay) {event : Event}
    (member : event ∈ replay.events.toList) {name : String} (among : name ∈ event.names) :
    ∃ other ∈ replay.events.toList, other.function = name := by
  obtain rfl | onStack := List.mem_cons.mp among
  · exact ⟨event, member, rfl⟩
  · obtain ⟨frame, frames, rfl⟩ := List.mem_map.mp onStack
    exact function_of_frame h member frames

/-- The names of a trace are clean: there are no blanks and no marks in them. Each event has the
function of its line, and this is empty just if the body of the line begins with a bracket. So no
name is empty in a trace without such lines. -/
theorem run_names (h : run settings lines = .ok replay) :
    (∀ event ∈ replay.events.toList, ∀ name ∈ event.names, IsClean name) ∧
    (∃ readings, lines.mapM (Reading.ofLine settings) = .ok readings ∧
      replay.events.toList.map (·.function) =
        (readings.filterMap Reading.named?).map Prod.snd ∧
      ∀ named ∈ readings.filterMap Reading.named?,
        named.2 = "" ↔ named.1.body.head? = some '[') ∧
    ((∀ line ∈ lines, ¬ isNameless line = true) →
      ∀ event ∈ replay.events.toList, ∀ name ∈ event.names,
        ∃ function : FunctionName, name = function.toString) := by
  obtain ⟨readings, read, rfl⟩ := readings_of_run settings h
  have functions : (readAll settings {} readings).events.toList.map (·.function) =
      (readings.filterMap Reading.named?).map Prod.snd := functions_readAll {} readings
  have fromLine {named : Columns × String} (member : named ∈ readings.filterMap Reading.named?) :
      ∃ line ∈ lines, Columns.ofLine line = .ok (some named.1) ∧ IsClean named.2 ∧
        (named.2 = "" ↔ named.1.body.head? = some '[') := by
    obtain ⟨reading, among, names⟩ := List.mem_filterMap.mp member
    obtain ⟨line, given, read_line⟩ := exists_of_mem_mapM_ok read among
    exact ⟨line, given, Reading.named?_ofLine read_line names⟩
  have fromEvent {event : Event} (member : event ∈ (readAll settings {} readings).events.toList)
      {name : String} (among : name ∈ event.names) :
      ∃ named ∈ readings.filterMap Reading.named?, named.2 = name := by
    obtain ⟨other, found, rfl⟩ := exists_event_of_name h member among
    exact List.mem_map.mp (functions ▸ List.mem_map_of_mem found)
  refine ⟨fun event member name among => ?_, ⟨readings, read, functions, fun named member => ?_⟩,
    fun titled event member name among => ?_⟩
  · obtain ⟨named, from_, rfl⟩ := fromEvent member among
    obtain ⟨line, -, -, clean, -⟩ := fromLine from_
    exact clean
  · obtain ⟨line, -, -, -, empty⟩ := fromLine member
    exact empty
  · obtain ⟨named, from_, rfl⟩ := fromEvent member among
    obtain ⟨line, given, columns, clean, empty⟩ := fromLine from_
    refine clean.resolve_left fun none_ => titled line given ?_
    exact (isNameless_of_columns columns).mpr (empty.mp none_)

theorem run_names_tagged :
    let lines := ["0)   |f [m]() \x7b".toList, "0) 0.5 us |  g[m]();".toList]
    ∃ replay, run {} lines = .ok replay ∧
      replay.events.toList.map Event.names = [["f", "f"], ["g", "f", "g"]] ∧
      ∀ event ∈ replay.events.toList, ∀ name ∈ event.names,
        ∃ function : FunctionName, name = function.toString := by
  intro lines
  have finishes : ((run {} lines).map fun replay => replay.events.toList.map Event.names) =
      .ok [["f", "f"], ["g", "f", "g"]] := by rfl
  obtain ⟨replay, h, names⟩ := of_map_ok finishes
  exact ⟨replay, h, names, (run_names h).2.2 (by decide)⟩

/-- A tag with no name before it is taken for a function, and this function has no name. -/
theorem run_nameless :
    ∃ replay, run {} ["0) 0.5 us |[m]();".toList] = .ok replay ∧
      replay.events.toList.map Event.names = [["", ""]] := by
  have finishes : ((run {} ["0) 0.5 us |[m]();".toList]).map fun replay =>
      replay.events.toList.map Event.names) = .ok [["", ""]] := by rfl
  exact of_map_ok finishes

end Replay

end CallTimeline.Trace
