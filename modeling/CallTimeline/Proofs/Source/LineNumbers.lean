import CallTimeline.Proofs.Source.Exhaustive

namespace CallTimeline.Source

open Text

/-- Line feeds are the only separators of a text. -/
def OnlyLineFeeds (text : List Char) : Prop :=
  ∀ c ∈ text, isLineEnd c = true → c = '\n'

instance (text : List Char) : Decidable (OnlyLineFeeds text) :=
  List.decidableBAll (fun c => isLineEnd c = true → c = '\n') text

theorem sourceLines_eq_lines {text : List Char} (feeds : OnlyLineFeeds text) :
    sourceLines text = lines text := by
  refine cutLines_congr fun c member => ?_
  by_cases feed : c = '\n'
  · subst feed
    decide
  · have noEnd : isLineEnd c = false := by
      by_contra ends
      exact feed (feeds c member (by simpa using ends))
    simp [noEnd, feed]

theorem bodyOfFile_eq {settings : Settings} {tree : FileTree} {path path' : String}
    {text : List Char} (loaded : Shelf.load tree path = some text)
    (same : tree.read path' = tree.read path) (start : Int) :
    bodyOfFile settings tree path' start = settings.body (lines text) start := by
  unfold Shelf.load at loaded
  split at loaded
  case h_1 bytes bytes_eq =>
    rw [bodyOfFile, same, bytes_eq, ← Option.some.inj loaded]
  case h_2 => cases loaded

/-- What is read at the line of a location, under any path to its file, is the body of the
location, if line feeds are the only separators of the file. -/
theorem resolve_body_eq_bodyOfFile {settings : Settings} {root : Root} {earlier : List String}
    {function : String} {location : Location}
    (resolved : (resolve settings root (shelfAfter settings root earlier) function).2 =
      .ok location)
    (status : location.status = .resolved) :
    ∃ source ∈ root.files settings, location.file = .str source.relative ∧
      ∃ text, Shelf.load root.tree source.path = some text ∧
        (OnlyLineFeeds text → ∀ path, root.tree.read path = root.tree.read source.path →
          ∃ body, bodyOfFile settings root.tree path location.line = .ok body ∧
            location.text = .str body.text ∧ location.lineCount = body.lineCount ∧
            location.bodyStatus = body.status) := by
  have faithful := shelfAfter_faithful settings root earlier
  obtain ⟨first, others, all, body, body_eq, rfl⟩ := first_of_resolve faithful resolved status
  obtain ⟨source, among, loaded, file_eq, -⟩ :=
    line_of_everyDefinition all List.mem_cons_self
  refine ⟨source, among, by rw [← file_eq]; rfl, first.text, loaded, fun feeds path same => ?_⟩
  refine ⟨body, ?_, rfl, rfl, rfl⟩
  rw [bodyOfFile_eq loaded same, ← sourceLines_eq_lines feeds]
  exact body_eq

theorem resolve_body_eq_bodyOfFile_sample :
    ∃ location, (resolve sampleSettings (textRoot sampleText)
        (shelfAfter sampleSettings (textRoot sampleText) []) "f").2 = .ok location ∧
      location.status = .resolved ∧ OnlyLineFeeds sampleText ∧
      ∃ body, bodyOfFile sampleSettings (textRoot sampleText).tree (Path.join "/" "net/a.c")
          location.line = .ok body ∧
        location.text = .str body.text ∧ location.lineCount = body.lineCount ∧
        location.bodyStatus = body.status := by
  have feeds : OnlyLineFeeds sampleText := by decide
  refine ⟨_, resolve_sampleText, rfl, feeds, ?_⟩
  obtain ⟨source, among, -, text, loaded, agree⟩ :=
    @resolve_body_eq_bodyOfFile _ _ [] _ _ resolve_sampleText rfl
  rw [textRoot_files, List.mem_singleton] at among
  subst among
  have text_eq : Shelf.load (textRoot sampleText).tree "/net/a.c" = some sampleText := by cbv
  obtain rfl : text = sampleText := Option.some.inj (loaded.symm.trans text_eq)
  exact agree feeds (Path.join "/" "net/a.c") rfl

def feedText : List Char := "/*\x0c*/\nint f(void)\n\x7b\n\x7d\n".toList

/-- The definition stands on the second line of the file, and the body that is read at the line of
its location lacks this line. -/
theorem resolve_body_shifted :
    ∃ location, (resolve sampleSettings (textRoot feedText) {} "f").2 = .ok location ∧
      location.status = .resolved ∧ location.file = .str "net/a.c" ∧ location.line = 3 ∧
      location.text = .str "int f(void)\n\x7b\n\x7d\n" ∧ location.lineCount = 3 ∧
      bodyOfFile sampleSettings (textRoot feedText).tree (Path.join "/" "net/a.c") 3 =
        .ok { text := "\x7b\n\x7d\n", lineCount := 2, status := .complete } ∧
      bodyOfFile sampleSettings (textRoot feedText).tree (Path.join "/" "net/a.c") 2 =
        .ok { text := "int f(void)\n\x7b\n\x7d\n", lineCount := 3, status := .complete } := by
  have loaded : Shelf.load (textRoot feedText).tree "/net/a.c" = some feedText := by cbv
  have symbol : (Kernel.baseSymbol "f").toList = ['f'] := by decide
  have found : sampleSettings.everyDefinition (Kernel.baseSymbol "f").toList
      (sourceLines feedText) = .ok [3] := by
    rw [symbol]
    cbv
  have body_eq : sampleSettings.body (sourceLines feedText) (3 : Nat) =
      .ok { text := "int f(void)\n\x7b\n\x7d\n", lineCount := 3, status := .complete } := by
    cbv
  have path : Path.join "/" "net/a.c" = "/net/a.c" := by decide
  have read (start : Int) : bodyOfFile sampleSettings (textRoot feedText).tree
      (Path.join "/" "net/a.c") start = sampleSettings.body (lines feedText) start :=
    bodyOfFile_eq loaded (by rw [path]) start
  refine ⟨_, resolve_textRoot loaded found body_eq, rfl, rfl, rfl, rfl, rfl, ?_, ?_⟩
  · rw [read]
    cbv
  · rw [read]
    cbv

end CallTimeline.Source
