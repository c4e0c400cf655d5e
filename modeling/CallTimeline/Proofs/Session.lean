import CallTimeline.Session

/-!
# Steps of a run

A step comes to a result or a fault (`outcome`) and leaves a session (`result`); steps that come to
a result together each do so (`of_result_bind`). Steps that only print come to an end and leave the
rest of the session as it is (`Prints`), so what stands around them can be followed without them
(`Prints.outcome_bind`, `Prints.of_result_bind`). Steps that change no file may come to a fault
(`Keeps`); what stands behind them begins with the same files (`Keeps.result_bind_eq`). Where the
printed lines do not matter, steps are told by what they come to and the files that they leave
(`Leaves`), or by what any result of them is (`Gives`).
-/

namespace CallTimeline.Work

variable {α β : Type}

/-- What a step comes to and the session that it leaves. -/
def result (work : Work α) (session : Session) : Except Fault α × Session :=
  StateT.run (ExceptT.run work) session

def outcome (work : Work α) (session : Session) : Except Fault α :=
  (work.result session).1

theorem result_bind (first : Work α) (next : α → Work β) (session : Session) :
    (first >>= next).result session =
      match first.result session with
      | (.ok value, session) => (next value).result session
      | (.error fault, session) => (.error fault, session) := by
  simp only [result, ExceptT.run_bind, StateT.run_bind]
  obtain ⟨_ | value, session⟩ := StateT.run (ExceptT.run first) session <;> rfl

theorem of_result_bind {first : Work α} {next : α → Work β} {session after : Session} {value : β}
    (h : (first >>= next).result session = (.ok value, after)) :
    ∃ middle between, first.result session = (.ok middle, between) ∧
      (next middle).result between = (.ok value, after) := by
  rw [result_bind] at h
  split at h
  case h_1 middle between first => exact ⟨middle, between, first, h⟩
  case h_2 => cases h

theorem result_mapM_cons {step : α → Work β} {x : α} {xs : List α} {session between : Session}
    {y : β} (first : (step x).result session = (.ok y, between)) :
    ((x :: xs).mapM step).result session =
      match (xs.mapM step).result between with
      | (.ok ys, after) => (.ok (y :: ys), after)
      | (.error fault, after) => (.error fault, after) := by
  rw [List.mapM_cons, result_bind, first]
  dsimp only
  rw [result_bind]
  obtain ⟨_ | ys, after⟩ := (xs.mapM step).result between <;> rfl

theorem result_lift (known : Except Fault α) (session : Session) :
    (liftM known : Work α).result session = (known, session) := by
  cases known <;> rfl

theorem result_lift_bind (known : Except Fault α) (next : α → Work β) (session : Session) :
    (liftM known >>= next).result session =
      match known with
      | .ok value => (next value).result session
      | .error fault => (.error fault, session) := by
  rw [result_bind, result_lift]
  cases known <;> rfl

theorem result_contents_bind {path : String} {bytes : List UInt8} {session : Session}
    (file : session.tree.read path = .ok bytes) (next : List UInt8 → Work β) :
    (contents path >>= next).result session = (next bytes).result session := by
  have read : (contents path).result session = (.ok bytes, session) := by
    change (liftM (session.tree.read path) : Work (List UInt8)).result session = _
    rw [result_lift, file]
  rw [result_bind, read]

theorem result_host_bind (next : Host → Work β) (session : Session) :
    (host >>= next).result session = (next session.host).result session := rfl

theorem result_tree_bind (next : FileTree → Work β) (session : Session) :
    (tree >>= next).result session = (next session.tree).result session := rfl

theorem result_get_bind (next : Session → Work β) (session : Session) :
    (get >>= next).result session = (next session).result session := rfl

theorem result_modify_bind (change : Session → Session) (next : PUnit → Work β)
    (session : Session) :
    (modify change >>= next).result session = (next ()).result (change session) := rfl

theorem outcome_lift_bind (known : Except Fault α) (next : α → Work β) (session : Session) :
    (liftM known >>= next).outcome session =
      known >>= fun value => (next value).outcome session := by
  rw [outcome, result_bind, result_lift]
  cases known <;> rfl

theorem outcome_lift (known : Except Fault α) (session : Session) :
    (liftM known : Work α).outcome session = known := by
  rw [outcome, result_lift]

theorem outcome_bind_lift (first : Work α) (next : α → Except Fault β) (session : Session) :
    (first >>= fun value => liftM (next value)).outcome session =
      first.outcome session >>= next := by
  rw [outcome, result_bind, outcome]
  obtain ⟨_ | value, session⟩ := first.result session
  · rfl
  · exact outcome_lift (next value) session

theorem outcome_host_bind (next : Host → Work β) (session : Session) :
    (host >>= next).outcome session = (next session.host).outcome session := rfl

theorem outcome_tree_bind (next : FileTree → Work β) (session : Session) :
    (tree >>= next).outcome session = (next session.tree).outcome session := rfl

theorem outcome_modify_bind (change : Session → Session) (next : PUnit → Work β)
    (session : Session) :
    (modify change >>= next).outcome session = (next ()).outcome (change session) := rfl

theorem result_tryCatch (work : Work α) (handler : Fault → Work α) (session : Session) :
    (tryCatch work handler).result session =
      match work.result session with
      | (.ok value, session) => (.ok value, session)
      | (.error fault, session) => (handler fault).result session := by
  simp only [result, ExceptT.run, tryCatch, tryCatchThe, MonadExceptOf.tryCatch,
    ExceptT.tryCatch, ExceptT.mk, StateT.run_bind]
  obtain ⟨_ | value, session⟩ := StateT.run work session <;> rfl

theorem result_store {path : String} {bytes : List UInt8} {session : Session} {tree : FileTree}
    (stores : session.tree.write path bytes = .ok tree) :
    (store path bytes).result session = (.ok (), { session with tree }) := by
  change (onFiles.liftExcept _ : Work Unit).result { session with tree := _ } = _
  rw [stores]
  rfl

theorem result_store_error {path : String} {bytes : List UInt8} {session : Session} {fault : Fault}
    (fails : session.tree.write path bytes = .error fault) :
    (store path bytes).result session = (.error fault, session) := by
  change (onFiles.liftExcept _ : Work Unit).result { session with tree := _ } = _
  rw [fails]
  rfl

theorem of_result_store {path : String} {bytes : List UInt8} {session after : Session}
    (stores : (store path bytes).result session = (.ok (), after)) :
    session.tree.write path bytes = .ok after.tree := by
  cases write : session.tree.write path bytes with
  | ok tree =>
      rw [result_store write] at stores
      cases stores
      rfl
  | error fault =>
      rw [result_store_error write] at stores
      cases stores

theorem result_discard {path : String} {session : Session} {tree : FileTree}
    (removes : session.tree.remove path = .ok tree) :
    (discard path).result session = (.ok (), { session with tree }) := by
  change (onFiles.liftExcept _ : Work Unit).result { session with tree := _ } = _
  rw [removes]
  rfl

theorem result_makeDirectories (path : PlainPath) (session : Session) :
    (makeDirectories path).result session =
      ((session.tree.makeDirectories (path.names.length + 1) path).2,
        { session with tree := (session.tree.makeDirectories (path.names.length + 1) path).1 }) := by
  change (onFiles.liftExcept _ : Work Unit).result { session with tree := _ } = _
  cases (session.tree.makeDirectories (path.names.length + 1) path).2 <;> rfl

/-- Comes to a value and changes nothing but what has been printed. -/
def Prints (work : Work α) (value : α) : Prop :=
  ∀ session, ∃ output, work.result session = (.ok value, { session with output })

theorem prints_print (line : String) : (print line).Prints () :=
  fun session => ⟨session.output ++ line ++ "\n", rfl⟩

theorem prints_pure (value : α) : (pure value : Work α).Prints value :=
  fun session => ⟨session.output, rfl⟩

theorem Prints.bind {first : Work α} {next : α → Work β} {value : α} {value' : β}
    (prints : first.Prints value) (prints' : (next value).Prints value') :
    (first >>= next).Prints value' := by
  intro session
  obtain ⟨between, first_eq⟩ := prints session
  obtain ⟨output, next_eq⟩ := prints' { session with output := between }
  exact ⟨output, by rw [result_bind, first_eq]; exact next_eq⟩

theorem Prints.result_bind_eq {first : Work α} {value : α} (prints : first.Prints value)
    (next : α → Work β) (session : Session) :
    ∃ output, (first >>= next).result session = (next value).result { session with output } := by
  obtain ⟨output, first_eq⟩ := prints session
  exact ⟨output, by rw [Work.result_bind, first_eq]⟩

theorem Prints.of_result_bind {first : Work α} {next : α → Work β} {value : α} {result : β}
    {session after : Session} (prints : first.Prints value)
    (h : (first >>= next).result session = (.ok result, after)) :
    ∃ output, (next value).result { session with output } = (.ok result, after) := by
  obtain ⟨output, first_eq⟩ := prints session
  rw [result_bind, first_eq] at h
  exact ⟨output, h⟩

theorem prints_forIn {xs : List α} {body : α → PUnit → Work (ForInStep PUnit)}
    (each : ∀ x ∈ xs, (body x ⟨⟩).Prints (.yield ⟨⟩)) :
    (forIn xs PUnit.unit body : Work PUnit).Prints ⟨⟩ := by
  induction xs with
  | nil => exact prints_pure PUnit.unit
  | cons x xs ih =>
      rw [List.forIn_cons]
      exact (each x List.mem_cons_self).bind
        (ih fun y member => each y (List.mem_cons_of_mem x member))

theorem prints_forM {xs : List α} {step : α → Work PUnit} (each : ∀ x ∈ xs, (step x).Prints ⟨⟩) :
    (xs.forM step).Prints ⟨⟩ := by
  induction xs with
  | nil => exact prints_pure PUnit.unit
  | cons x xs ih =>
      exact (each x List.mem_cons_self).bind
        (ih fun y member => each y (List.mem_cons_of_mem x member))

theorem Prints.outcome_bind {first : Work α} {next : α → Work β} {value : α} {session : Session}
    {expected : Except Fault β} (prints : first.Prints value)
    (rest : ∀ output, (next value).outcome { session with output } = expected) :
    (first >>= next).outcome session = expected := by
  obtain ⟨output, first_eq⟩ := prints session
  rw [outcome, result_bind, first_eq]
  exact rest output

theorem result_forIn_lift (check : α → Except Fault Unit) (xs : List α) (session : Session) :
    (forIn xs PUnit.unit fun x _ => do
        liftM (check x)
        pure (.yield ⟨⟩) : Work PUnit).result session = (xs.forM check, session) := by
  induction xs with
  | nil => rfl
  | cons x xs ih =>
      rw [List.forIn_cons, result_bind, result_bind, result_lift]
      change _ = (check x >>= fun _ => xs.forM check, session)
      cases check x with
      | error fault => rfl
      | ok => exact ih

theorem outcome_forIn_lift_bind (check : α → Except Fault Unit) (xs : List α)
    (next : PUnit → Work β) (session : Session) :
    ((forIn xs PUnit.unit fun x _ => do
        liftM (check x)
        pure (.yield ⟨⟩)) >>= next).outcome session =
      xs.forM check >>= fun _ => (next ⟨⟩).outcome session := by
  rw [outcome, result_bind, result_forIn_lift]
  cases xs.forM check <;> rfl

/-- Leaves the files as they are, and runs on the same machine. -/
def Keeps (work : Work α) : Prop :=
  ∀ session, (work.result session).2.tree = session.tree ∧
    (work.result session).2.host = session.host

theorem keeps_lift (known : Except Fault α) : (liftM known : Work α).Keeps := by
  intro session
  rw [result_lift]
  exact ⟨rfl, rfl⟩

theorem Prints.keeps {work : Work α} {value : α} (prints : work.Prints value) : work.Keeps := by
  intro session
  obtain ⟨output, work_eq⟩ := prints session
  rw [work_eq]
  exact ⟨rfl, rfl⟩

theorem Keeps.bind {first : Work α} {next : α → Work β} (keeps : first.Keeps)
    (keeps' : ∀ value, (next value).Keeps) : (first >>= next).Keeps := by
  intro session
  obtain ⟨tree, host⟩ := keeps session
  rw [result_bind]
  cases reached : first.result session with
  | mk outcome between =>
      rw [reached] at tree host
      cases outcome with
      | error fault => exact ⟨tree, host⟩
      | ok value =>
          obtain ⟨tree', host'⟩ := keeps' value between
          exact ⟨tree'.trans tree, host'.trans host⟩

theorem keeps_forIn_lift (check : α → Except Fault Unit) (xs : List α) :
    (forIn xs PUnit.unit fun x _ => do
        liftM (check x)
        pure (.yield ⟨⟩) : Work PUnit).Keeps := by
  intro session
  rw [result_forIn_lift]
  exact ⟨rfl, rfl⟩

theorem Keeps.result_bind_eq {first : Work α} (keeps : first.Keeps) (next : α → Work β)
    (session : Session) :
    ∃ between : Session, between.tree = session.tree ∧ between.host = session.host ∧
      (first >>= next).result session =
        match first.outcome session with
        | .ok value => (next value).result between
        | .error fault => (.error fault, between) := by
  obtain ⟨tree, host⟩ := keeps session
  refine ⟨_, tree, host, ?_⟩
  rw [result_bind, outcome]
  obtain ⟨_ | value, between⟩ := first.result session <;> rfl

/-- Comes to a result or a fault and leaves some files, whatever has been printed and is printed. -/
def Leaves (work : Work α) (session : Session) (known : Except Fault α) (tree : FileTree) : Prop :=
  ∀ before, ∃ output,
    work.result { session with output := before } = (known, { session with tree, output })

section

variable {session : Session} {tree after : FileTree} {first : Work α} {next : α → Work β}

theorem Leaves.result {work : Work α} {known : Except Fault α}
    (leaves : work.Leaves session known tree) :
    ∃ output, work.result session = (known, { session with tree, output }) :=
  leaves session.output

theorem leaves_of_result {work : Work α} {known : Except Fault α}
    (comes : ∀ output, work.result { session with output } =
      (known, { session with tree, output })) : work.Leaves session known tree :=
  fun before => ⟨before, comes before⟩

theorem Prints.leaves {work : Work α} {value : α} (prints : work.Prints value) (session : Session) :
    work.Leaves session (.ok value) session.tree :=
  fun before => prints { session with output := before }

theorem Leaves.bind {value : α} {known : Except Fault β} (leaves : first.Leaves session (.ok value) tree)
    (later : (next value).Leaves { session with tree } known after) :
    (first >>= next).Leaves session known after := by
  intro before
  obtain ⟨between, first_eq⟩ := leaves before
  obtain ⟨output, next_eq⟩ := later between
  exact ⟨output, by rw [result_bind, first_eq]; exact next_eq⟩

theorem Leaves.bind_error {fault : Fault} (leaves : first.Leaves session (.error fault) tree)
    (next : α → Work β) : (first >>= next).Leaves session (.error fault) tree := by
  intro before
  obtain ⟨output, first_eq⟩ := leaves before
  exact ⟨output, by rw [result_bind, first_eq]⟩

theorem Prints.leaves_bind {value : α} {known : Except Fault β} (prints : first.Prints value)
    (later : (next value).Leaves session known after) : (first >>= next).Leaves session known after :=
  (prints.leaves session).bind later

theorem leaves_host_bind {next : Host → Work β} {known : Except Fault β}
    (later : (next session.host).Leaves session known after) :
    (host >>= next).Leaves session known after :=
  later

end

def Gives (work : Work α) (property : α → Prop) : Prop :=
  ∀ ⦃session after value⦄, work.result session = (.ok value, after) → property value

theorem gives_pure {property : α → Prop} {value : α} (holds : property value) :
    (pure value : Work α).Gives property := by
  intro session after value comes
  cases comes
  exact holds

theorem gives_bind {first : Work α} {next : α → Work β} {property : β → Prop}
    (gives : ∀ value, (next value).Gives property) : (first >>= next).Gives property := by
  intro session after value comes
  obtain ⟨middle, between, -, later⟩ := of_result_bind comes
  exact gives middle later

end CallTimeline.Work
