import CallTimeline.Command.Annotate
import CallTimeline.Proofs.Command.Arguments
import CallTimeline.Proofs.Command.Building

namespace CallTimeline.Command

namespace AnnotateOptions

variable {options : AnnotateOptions}

theorem operands_act_option {flag : Flag} {value : String} {after : AnnotateOptions}
    (acts : act options (.option flag value) = .ok after) : after.operands = options.operands := by
  rw [act] at acts
  split at acts
  · cases acts
    rfl
  split at acts
  · cases acts
    rfl
  split at acts
  · split at acts <;> cases acts
    rfl
  split at acts
  · split at acts <;> cases acts
    rfl
  cases acts

theorem two_le_count_of_rootless {arguments : List String}
    (accepted : ofArguments arguments = .ok options) (rootless : options.sourceRoot? = none) :
    2 ≤ arguments.count "--" := by
  let Inv (options : AnnotateOptions) (wanted : Nat) : Prop :=
    options.operands.length + wanted = 2 ∧ (none ∈ options.operands → 2 ≤ arguments.count "--")
  have keeps (shapes : List (String × Shape)) (classified : classify flags arguments = .ok shapes) :
      Keeps act shapes Inv := by
    constructor
    case option =>
      rintro state after wanted flag value ⟨counted, valueless⟩ acts
      change after.operands.length + wanted = 2 ∧ (none ∈ after.operands → _)
      rw [operands_act_option acts]
      exact ⟨counted, valueless⟩
    case operand =>
      rintro state after wanted value ⟨counted, valueless⟩ operand acts
      cases acts
      refine ⟨?_, fun member => ?_⟩
      · rw [List.length_append, List.length_singleton, Nat.add_assoc, Nat.add_comm 1]
        exact counted
      · obtain before | last := List.mem_append.mp member
        · exact valueless before
        · exact two_le_count_of_operand classified (operand (List.mem_singleton.mp last).symm)
  obtain ⟨counted, valueless⟩ : Inv options 0 :=
    of_parse keeps ⟨rfl, fun member => absurd member List.not_mem_nil⟩ accepted
  have second : 1 < options.operands.length := by omega
  rw [sourceRoot?, List.getElem?_eq_getElem second, Option.join_some] at rootless
  exact valueless (rootless ▸ List.getElem_mem second)

def archiveDirectory (options : AnnotateOptions) (host : Host) : String :=
  if options.outputDirectory.isEmpty then Archive.defaultDirectory host else options.outputDirectory

theorem gives_run (options : AnnotateOptions) (sourceRoot outputDirectory : String) :
    (options.run sourceRoot outputDirectory).Gives (· ∈ [0]) := by
  unfold run
  iterate 10 refine Work.gives_bind fun _ => ?_
  split
  case isTrue => exact Work.gives_pure (by decide)
  case isFalse => exact Work.gives_bind fun _ => Work.gives_pure (by decide)

end AnnotateOptions

theorem BuildOptions.gives_run (options : BuildOptions) (settings : Trace.Settings) :
    (options.run settings).Gives (· ∈ [0, 3]) := by
  unfold run
  iterate 6 refine Work.gives_bind fun _ => ?_
  split
  case isTrue =>
    iterate 4 refine Work.gives_bind fun _ => ?_
    exact Work.gives_pure (by decide)
  case isFalse => exact Work.gives_bind fun _ => Work.gives_pure (by decide)

variable {arguments : List String} {session : Session}

theorem build_exits {options : BuildOptions}
    (accepted : BuildOptions.ofArguments session.host arguments = .ok options)
    {settings : Trace.Settings}
    (fits : Trace.Settings.make options.indentWidth 1000 "net/core" = .ok settings) :
    ∃ code after, (build arguments).result session = (.ok code, after) ∧ code ∈ [0, 1, 3] ∧
      (code = 1 ↔ Fails (fun _ => options.inputFile) (options.run settings) session after) := by
  obtain ⟨code, after, builds, ends⟩ := result_build accepted fits
  obtain ⟨among, failed⟩ := ends.exits (options.gives_run settings) (by decide)
  exact ⟨code, after, builds, (List.Perm.swap 0 1 [3]).mem_iff.mp among, failed⟩

section

variable {options : AnnotateOptions} (accepted : AnnotateOptions.ofArguments arguments = .ok options)

include accepted

theorem annotate_exits {root : String} (rooted : options.sourceRoot? = some root)
    (directory : session.tree.isDirectory root = true) :
    ∃ code after, (annotate arguments).result session = (.ok code, after) ∧ code ∈ [0, 1] ∧
      (code = 1 ↔
        Fails id (options.run root (options.archiveDirectory session.host)) session after) := by
  obtain ⟨code, after, annotates, ends⟩ : ∃ code after,
      (annotate arguments).result session = (.ok code, after) ∧
        Ends id (options.run root (options.archiveDirectory session.host)) session code after := by
    rw [annotate, accepted]
    simp only [rooted]
    rw [Work.result_tree_bind, if_pos directory, Work.result_host_bind]
    refine exists_ends (fun fault session => ?_) session
    split
    case h_1 => rfl
    case h_2 other =>
      rw [complaint]
      · rfl
      · exact other
  obtain ⟨among, failed⟩ := ends.exits (options.gives_run root _) (by decide)
  exact ⟨code, after, annotates, (List.Perm.swap 0 1 []).mem_iff.mp among, failed⟩

theorem annotate_of_noDirectory {root : String} (rooted : options.sourceRoot? = some root)
    (none : session.tree.isDirectory root = false) :
    (annotate arguments).result session =
      (.ok 1, { session with
        output := session.output ++ ("Error: Source root '" ++ root ++ "' is not a directory.") ++
          "\n" }) := by
  rw [annotate, accepted]
  simp only [rooted]
  rw [Work.result_tree_bind, if_neg (by simp [none])]
  rfl

theorem annotate_of_rootless (rootless : options.sourceRoot? = none) :
    (annotate arguments).result session =
      (.error (.mismatch
        "stat: path should be string, bytes, os.PathLike or integer, not list"), session) := by
  rw [annotate, accepted]
  simp only [rootless]
  rfl

end

/-- With an indentation width of at least one, building a timeline ends with 0, 1 or 3, and so does
annotating one with 0 or 1 if its source root has a value. The code is 1 if the run fails, and what
failed is printed; or if the source root is no directory. A width below one and a source root without a
value are faults that escape; the latter takes a separator behind another one. -/
theorem commands_end (session : Session) (arguments : List String) :
    (∀ options, BuildOptions.ofArguments session.host arguments = .ok options →
      if 1 ≤ options.indentWidth then
        ∃ settings code after,
          Trace.Settings.make options.indentWidth 1000 "net/core" = .ok settings ∧
          (build arguments).result session = (.ok code, after) ∧ code ∈ [0, 1, 3] ∧
          (code = 1 ↔ Fails (fun _ => options.inputFile) (options.run settings) session after)
      else
        (build arguments).result session = (.error (.indentWidth options.indentWidth), session)) ∧
    (∀ options, AnnotateOptions.ofArguments arguments = .ok options →
      match options.sourceRoot? with
      | some root =>
        ∃ code after, (annotate arguments).result session = (.ok code, after) ∧ code ∈ [0, 1] ∧
          if session.tree.isDirectory root then
            (code = 1 ↔
              Fails id (options.run root (options.archiveDirectory session.host)) session after)
          else
            code = 1 ∧ after = { session with
              output := session.output ++
                ("Error: Source root '" ++ root ++ "' is not a directory.") ++ "\n" }
      | none =>
        2 ≤ arguments.count "--" ∧
          (annotate arguments).result session =
            (.error (.mismatch
              "stat: path should be string, bytes, os.PathLike or integer, not list"), session)) := by
  constructor
  · intro options accepted
    split
    case isTrue wide =>
      obtain ⟨settings, fits⟩ := exists_settings wide
      obtain ⟨code, after, exits⟩ := build_exits accepted fits
      exact ⟨settings, code, after, fits, exits⟩
    case isFalse narrow => exact result_build_of_narrow accepted (by omega)
  · intro options accepted
    split
    case h_1 root rooted =>
      by_cases directory : session.tree.isDirectory root = true
      · simp only [directory, if_true]
        exact annotate_exits accepted rooted directory
      · exact ⟨1, _, annotate_of_noDirectory accepted rooted (by simpa using directory), by simp,
          by rw [if_neg directory]; exact ⟨rfl, rfl⟩⟩
    case h_2 rootless =>
      exact ⟨AnnotateOptions.two_le_count_of_rootless accepted rootless,
        annotate_of_rootless accepted rootless⟩

theorem commands_end_empty :
    (∃ code after, (build ["t.txt"]).result Archive.emptySession = (.ok code, after) ∧
      code ∈ [0, 1, 3]) ∧
    ∃ after, (annotate ["t.json", "src"]).result Archive.emptySession = (.ok 1, after) := by
  have built : BuildOptions.ofArguments Archive.emptySession.host ["t.txt"] =
      .ok { inputFile := "t.txt", kernelRelease := "" } := by cbv
  have annotated : AnnotateOptions.ofArguments ["t.json", "src"] =
      .ok { operands := [some "t.json", some "src"] } := rfl
  have none : Archive.emptySession.tree.isDirectory "src" = false := by cbv
  constructor
  · obtain ⟨settings, code, after, -, builds, among, -⟩ :=
      (commands_end Archive.emptySession ["t.txt"]).1 _ built
    exact ⟨code, after, builds, among⟩
  · obtain ⟨code, after, annotates, -, ends⟩ :=
      (commands_end Archive.emptySession ["t.json", "src"]).2 _ annotated
    simp only [none, Bool.false_eq_true, if_false] at ends
    exact ⟨after, ends.1 ▸ annotates⟩

theorem commands_escape :
    (∃ options, BuildOptions.ofArguments Archive.emptySession.host
      ["t.txt", "--indent-width", "0"] = .ok options) ∧
    (build ["t.txt", "--indent-width", "0"]).result Archive.emptySession =
      (.error (.indentWidth 0), Archive.emptySession) ∧
    (∃ options, AnnotateOptions.ofArguments ["t.json", "--", "--"] = .ok options) ∧
    (annotate ["t.json", "--", "--"]).result Archive.emptySession =
      (.error (.mismatch
        "stat: path should be string, bytes, os.PathLike or integer, not list"),
        Archive.emptySession) := by
  have built : BuildOptions.ofArguments Archive.emptySession.host
      ["t.txt", "--indent-width", "0"] =
      .ok { inputFile := "t.txt", kernelRelease := "", indentWidth := 0 } := rfl
  have annotated : AnnotateOptions.ofArguments ["t.json", "--", "--"] =
      .ok { operands := [some "t.json", none] } := rfl
  exact ⟨⟨_, built⟩, result_build_of_narrow built (by decide), ⟨_, annotated⟩,
    annotate_of_rootless annotated rfl⟩

end CallTimeline.Command
