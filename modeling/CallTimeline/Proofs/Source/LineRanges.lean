import CallTimeline.Proofs.Archive.Sources
import CallTimeline.Proofs.Source.Exhaustive
import CallTimeline.Proofs.Source.Extraction

namespace CallTimeline

namespace Source

open Body Text Json

structure Spans (lines : List (List Char)) (first count : Nat) (text : String) : Prop where
  starts : 1 ≤ first
  nonempty : 1 ≤ count
  inside : first + count - 1 ≤ lines.length
  text_eq : text = String.ofList ((lines.drop (first - 1)).take count).flatten

theorem one_le_sliceLength {total start : Nat} {size : Int} (inside : start < total)
    (some : 1 ≤ size) : 1 ≤ sliceLength total start size := by
  have stop : (start : Int) + 1 ≤ min (total : Int) (start + size) := by omega
  rw [sliceLength, if_neg (by omega)]
  omega

section

variable {limits : Limits} {lines : List (List Char)} {index : Nat}

theorem spans_ofLines {count : Nat} (status : BodyStatus) (inside : index < lines.length)
    (some : 1 ≤ count) :
    Spans lines (index + 1) (ofLines ((lines.drop index).take count) status).lineCount
      (ofLines ((lines.drop index).take count) status).text where
  starts := Nat.le_add_left 1 index
  nonempty := by
    simp only [ofLines, List.length_take, List.length_drop]
    omega
  inside := by
    simp only [ofLines, List.length_take, List.length_drop]
    omega
  text_eq := by
    rw [ofLines, Nat.add_sub_cancel, List.length_take, ← List.take_eq_take_min]

theorem extract_spans (inside : index < lines.length)
    (sliced : (extract limits lines (index + 1 : Nat)).status = .fallback → 1 ≤ limits.fallback) :
    Spans lines (index + 1) (extract limits lines (index + 1 : Nat)).lineCount
      (extract limits lines (index + 1 : Nat)).text := by
  have index_eq : (((index + 1 : Nat) : Int) - 1).toNat = index := by omega
  simp only [extract, index_eq] at sliced ⊢
  rw [if_neg (by omega)] at sliced ⊢
  cases found : opening? false limits.lookahead.toNat (lines.drop index) with
  | none =>
      simp only [found] at sliced ⊢
      exact spans_ofLines _ inside (one_le_sliceLength inside (sliced rfl))
  | some opening =>
      have opens : 1 ≤ opening.lines := by
        obtain ⟨skipped, _, -, -, -, lines_eq, -⟩ := opening?_eq_some found
        omega
      simp only
      split
      case isTrue => exact spans_ofLines _ inside opens
      case isFalse => exact spans_ofLines _ inside (opens.trans (Nat.le_add_right ..))

theorem Settings.body_spans {settings : Settings} {body : Body} (inside : index < lines.length)
    (sliced : ∀ size, settings.fallbackLines = some size → 1 ≤ size)
    (found : settings.body lines (index + 1 : Nat) = .ok body) :
    Spans lines (index + 1) body.lineCount body.text := by
  unfold Settings.body at found
  rw [if_neg (by omega)] at found
  split at found
  case h_1 => cases found
  case h_2 =>
    simp only at found
    split at found
    case isTrue => cases found
    case isFalse limited =>
      split at found
      case isTrue => cases found
      case isFalse =>
        cases found
        refine extract_spans inside fun slice => ?_
        cases size : settings.fallbackLines with
        | none => exact absurd ⟨slice, size⟩ limited
        | some size' => exact sliced _ size

end

theorem isShort_iff {value : Int} :
    (Numeral.int value).IsShort ↔ value.natAbs < 10 ^ Number.digitLimit :=
  Nat.length_toDigits_le_iff (by decide) (by decide)

theorem isShort_of_le {value bound : Nat} (le : value ≤ bound)
    (short : (Numeral.int bound).IsShort) : (Numeral.int value).IsShort := by
  rw [isShort_iff] at short ⊢
  exact Nat.lt_of_le_of_lt le short

theorem toString_natCast (value : Nat) : toString (value : Int) = toString value := rfl

theorem Location.lastLine_eq {location : Location} {first count : Nat}
    (line : location.line = first) (lineCount : location.lineCount = count) (some : 1 ≤ count) :
    location.lastLine = (first + count - 1 : Nat) := by
  rw [lastLine, line, lineCount]
  omega

end Source

open Source

theorem Annotation.lineRange_of_sourced {location : Location} {function : String}
    (name : location.function = .str function) (sourced : location.Sourced) :
    ∃ note, ofLocation location = .ok note ∧
      note.lineRange = toString location.line ++ "-" ++ toString location.lastLine := by
  rw [ofLocation, name, integerText_of_isShort sourced.line,
    integerText_of_isShort sourced.lastLine]
  exact ⟨_, rfl, rfl⟩

namespace Archive

variable {archive : Archive} {session after : Session}

theorem isOk_of_result_writeParts {path : String} {parts : List (Except Fault String)}
    (writes : (writeParts path parts).result session = (.ok (), after)) :
    ∀ part ∈ parts, part.isOk = true := by
  obtain ⟨_, between, -, later⟩ := Work.of_result_bind writes
  cases missing : parts.dropWhile (·.isOk) with
  | nil => exact List.dropWhile_eq_nil_iff.mp missing
  | cons part rest =>
      have first : parts[(parts.takeWhile (·.isOk)).length]? = some part := by
        conv => lhs; arg 1; rw [← List.takeWhile_append_dropWhile (p := (·.isOk)) (l := parts)]
        rw [missing]
        simp
      have notOk : ¬ part.isOk = true := by
        have := List.head?_dropWhile_not (·.isOk) parts
        simpa [missing] using this
      rw [first] at later
      cases part with
      | ok => exact absurd rfl notOk
      | error fault => cases later

theorem sourced_of_writeSource {name path : String} {location : Location}
    (text : location.text.IsText)
    (writes : (archive.writeSource (.str name, location)).result session = (.ok path, after)) :
    location.Sourced := by
  obtain ⟨_, between, parts, -⟩ := Work.of_result_bind writes
  have whole := isOk_of_result_writeParts parts
  rw [sourceParts] at whole
  simp only [List.forall_mem_cons] at whole
  obtain ⟨-, numbers, -⟩ := whole
  cases line : integerText location.line with
  | error fault =>
      rw [line] at numbers
      cases numbers
  | ok =>
      cases lastLine : integerText location.lastLine with
      | error fault =>
          rw [line, lastLine] at numbers
          cases numbers
      | ok => exact ⟨text, isShort_of_integerText line, isShort_of_integerText lastLine⟩

theorem write_of_writeSource {name path : String} {location : Location}
    (text : location.text.IsText)
    (writes : (archive.writeSource (.str name, location)).result session = (.ok path, after)) :
    session.tree.write path (Text.Utf8.encode (sourceText name location)) = .ok after.tree := by
  rw [result_writeSource_eq (sourced_of_writeSource text writes)] at writes
  obtain ⟨_, between, stores, same⟩ := Work.of_result_bind writes
  obtain ⟨path_eq, rfl⟩ := Prod.ext_iff.mp same
  obtain rfl : archive.sourcePath name = path := Except.ok.inj path_eq
  exact Work.of_result_store stores

end Archive

section

variable {location : Location} {first count : Nat} {body : String}

theorem Source.spans_of_resolve {settings : Settings} {root : Root} {earlier : List String}
    {function : String}
    (sliced : ∀ size, settings.fallbackLines = some size → 1 ≤ size)
    (resolved : (resolve settings root (shelfAfter settings root earlier) function).2 =
      .ok location)
    (status : location.status = .resolved) :
    location.function = .str function ∧
      ∃ source ∈ root.files settings, location.file = .str source.relative ∧
        ∃ text, Shelf.load root.tree source.path = some text ∧
          ∃ (first count : Nat) (body : String), location.line = first ∧
            location.lineCount = count ∧ location.text = .str body ∧
            Spans (Text.sourceLines text) first count body := by
  have faithful := shelfAfter_faithful settings root earlier
  obtain ⟨hit, others, all, body, body_eq, rfl⟩ := first_of_resolve faithful resolved status
  obtain ⟨source, among, loaded, file_eq, index, line_eq, inside, -⟩ :=
    line_of_everyDefinition all List.mem_cons_self
  rw [line_eq] at body_eq
  exact ⟨rfl, source, among, congrArg Json.str file_eq, hit.text, loaded, index + 1,
    body.lineCount, body.text, congrArg Nat.cast line_eq, rfl, rfl,
    Settings.body_spans inside sliced body_eq⟩

theorem Archive.sourceText_eq (name : String) (line : location.line = first)
    (lastLine : location.lastLine = (first + count - 1 : Nat)) (text : location.text = .str body) :
    sourceText name location = placeLine name location ++ "// Function definition (lines " ++
      (toString first ++ "-" ++ toString (first + count - 1)) ++ ")\n\n" ++ body := by
  have shown : location.text.display = body := congrArg Json.display text
  unfold sourceText linesLine
  simp only [shown, line, lastLine, toString_natCast, String.append_assoc]

theorem Source.Spans.sourced {lines : List (List Char)} (spans : Spans lines first count body)
    (line : location.line = first) (lastLine : location.lastLine = (first + count - 1 : Nat))
    (text : location.text = .str body) (short : (Json.Numeral.int lines.length).IsShort) :
    location.Sourced where
  text := ⟨body, text⟩
  line := by
    have le : first ≤ lines.length := by
      have := spans.nonempty
      have := spans.inside
      omega
    rw [line]
    exact isShort_of_le le short
  lastLine := by
    rw [lastLine]
    exact isShort_of_le spans.inside short

end

/-- The text of a resolved function is the lines of its file from the line of the definition on, as
many as are counted for it. The last of them is the one that the range in an annotation names, and the
one in the header of a source that is written. Both are there if the file has no more lines than can
be written as a number. -/
theorem Source.resolve_lineRange {settings : Settings} {root : Root} {earlier : List String}
    {function : String} {location : Location}
    (sliced : ∀ size, settings.fallbackLines = some size → 1 ≤ size)
    (resolved : (resolve settings root (shelfAfter settings root earlier) function).2 =
      .ok location)
    (status : location.status = .resolved) :
    ∃ source ∈ root.files settings, location.file = .str source.relative ∧
      ∃ text, Shelf.load root.tree source.path = some text ∧
        ∃ (first count : Nat) (body : String), location.line = first ∧ location.lineCount = count ∧
          location.text = .str body ∧ Spans (Text.sourceLines text) first count body ∧
          let range := toString first ++ "-" ++ toString (first + count - 1)
          let content (name : String) := Text.Utf8.encode (Archive.placeLine name location ++
            "// Function definition (lines " ++ range ++ ")\n\n" ++ body)
          (∀ note, Annotation.ofLocation location = .ok note → note.lineRange = range) ∧
          (∀ (archive : Archive) (name path : String) (session after : Session),
            (archive.writeSource (.str name, location)).result session = (.ok path, after) →
              session.tree.write path (content name) = .ok after.tree) ∧
          ((Json.Numeral.int (Text.sourceLines text).length).IsShort →
            (∃ note, Annotation.ofLocation location = .ok note) ∧
            ∀ (archive : Archive) (name : String) (session : Session) (tree : FileTree),
              session.tree.write (archive.sourcePath name) (content name) = .ok tree →
                (archive.writeSource (.str name, location)).result session =
                  (.ok (archive.sourcePath name), { session with tree })) := by
  obtain ⟨named, source, among, file, text, loaded, first, count, body, line, lineCount, text_eq,
    spans⟩ := spans_of_resolve sliced resolved status
  refine ⟨source, among, file, text, loaded, first, count, body, line, lineCount, text_eq, spans, ?_⟩
  intro range content
  have lastLine := Location.lastLine_eq line lineCount spans.nonempty
  have noted (sourced : location.Sourced) : ∃ note, Annotation.ofLocation location = .ok note ∧
      note.lineRange = range := by
    have annotated := Annotation.lineRange_of_sourced named sourced
    rwa [line, lastLine, toString_natCast, toString_natCast] at annotated
  have content_eq (name : String) :
      Text.Utf8.encode (Archive.sourceText name location) = content name :=
    congrArg Text.Utf8.encode (Archive.sourceText_eq name line lastLine text_eq)
  refine ⟨fun note annotated => ?_, fun archive name path session after writes => ?_,
    fun short => ?_⟩
  · obtain ⟨-, short, short'⟩ := Annotation.of_ofLocation annotated
    obtain ⟨note', annotated', shown⟩ := noted ⟨⟨_, text_eq⟩, short, short'⟩
    rw [annotated] at annotated'
    cases annotated'
    exact shown
  · rw [← content_eq]
    exact Archive.write_of_writeSource ⟨_, text_eq⟩ writes
  · have sourced := spans.sourced line lastLine text_eq short
    obtain ⟨note, annotated, -⟩ := noted sourced
    refine ⟨⟨note, annotated⟩, fun archive name session tree stores => ?_⟩
    exact Archive.result_writeSource sourced (content_eq name ▸ stores)

theorem Source.resolve_lineRange_sample :
    (∀ size, sampleSettings.fallbackLines = some size → 1 ≤ size) ∧ ∃ location,
      (resolve sampleSettings (textRoot sampleText)
        (shelfAfter sampleSettings (textRoot sampleText) []) "f").2 = .ok location ∧
      location.status = .resolved ∧
      Spans (Text.sourceLines sampleText) 2 3 "int f(void)\n\x7b\n\x7d\n" ∧
      ∃ note, Annotation.ofLocation location = .ok note ∧ note.lineRange = "2-4" := by
  have sliced : ∀ size, sampleSettings.fallbackLines = some size → 1 ≤ size := by
    rintro size ⟨⟩
    decide
  obtain ⟨location, resolved, status, line, lineCount, text_eq⟩ : ∃ location : Location,
      (resolve sampleSettings (textRoot sampleText)
        (shelfAfter sampleSettings (textRoot sampleText) []) "f").2 = .ok location ∧
      location.status = .resolved ∧ location.line = 2 ∧ location.lineCount = 3 ∧
      location.text = .str "int f(void)\n\x7b\n\x7d\n" :=
    ⟨_, resolve_sampleText, rfl, rfl, rfl, rfl⟩
  obtain ⟨source, among, -, text, loaded, first, count, body, _, _, body_eq, spans, shown⟩ :=
    resolve_lineRange sliced resolved status
  obtain rfl : first = 2 := by omega
  obtain rfl : count = 3 := by omega
  obtain rfl := Json.str.inj (body_eq.symm.trans text_eq)
  have listed : (textRoot sampleText).files sampleSettings =
      [{ path := "/net/a.c", relative := "net/a.c", real := ["net", "a.c"] }] := sampleRoot_files
  rw [listed] at among
  obtain rfl := List.mem_singleton.mp among
  have here : Shelf.load (textRoot sampleText).tree "/net/a.c" = some sampleText := by cbv
  obtain rfl := Option.some.inj (here.symm.trans loaded)
  obtain ⟨ranged, -, shorter⟩ := shown
  obtain ⟨⟨note, annotated⟩, -⟩ := shorter (by decide +kernel)
  exact ⟨sliced, location, resolved, status, spans, note, annotated, ranged note annotated⟩

end CallTimeline
