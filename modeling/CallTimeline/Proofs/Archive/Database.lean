import CallTimeline.Proofs.Archive
import CallTimeline.Proofs.Json.Plain
import CallTimeline.Proofs.Source.Database

namespace CallTimeline

open Json

namespace Source

/-- A location that can be written and read: text in the place of texts, and no number with too
many digits. -/
structure Location.Storable (location : Location) : Prop where
  file : location.file.IsText
  line : (Numeral.int location.line).IsShort
  text : location.text.IsText
  lineCount : (Numeral.int location.lineCount).IsShort
  candidates : ∀ candidate ∈ location.candidates,
    candidate.1.IsText ∧ (Numeral.int candidate.2).IsShort

theorem Location.Storable.numbers_toJson {location : Location} (storable : location.Storable) :
    ∀ number ∈ location.toJson.numbers, number.IsShort := by
  obtain ⟨⟨file, file_eq⟩, line, ⟨text, text_eq⟩, lineCount, candidates⟩ := storable
  have places : ∀ number ∈ itemsNumbers (location.candidates.map fun candidate =>
      Json.arr [candidate.1, .int candidate.2]), number.IsShort := by
    rw [itemsNumbers_eq]
    intro number member
    obtain ⟨item, among, inside⟩ := List.mem_flatMap.mp member
    obtain ⟨⟨file, line⟩, candidate, rfl⟩ := List.mem_map.mp among
    obtain ⟨⟨path, rfl⟩, short⟩ := candidates _ candidate
    obtain rfl : number = .int line := by simpa [numbers, itemsNumbers] using inside
    exact short
  simp only [toJson, numbers, fieldsNumbers, file_eq, text_eq, List.nil_append,
    List.forall_mem_append, List.forall_mem_singleton]
  exact ⟨line, lineCount, places, List.forall_mem_nil _⟩

theorem Location.Storable.distinct_toJson {location : Location} (storable : location.Storable) :
    location.toJson.Distinct := by
  obtain ⟨⟨file, file_eq⟩, -, ⟨text, text_eq⟩, -, candidates⟩ := storable
  have places : DistinctItems (location.candidates.map fun candidate =>
      Json.arr [candidate.1, .int candidate.2]) := by
    refine distinctItems_iff.mpr fun item among => ?_
    obtain ⟨⟨file, line⟩, candidate, rfl⟩ := List.mem_map.mp among
    obtain ⟨⟨path, rfl⟩, -⟩ := candidates _ candidate
    simp [Distinct, DistinctItems]
  rw [toJson]
  refine ⟨by simp only [List.map_cons, List.map_nil]; decide, ?_⟩
  simp only [DistinctFields, file_eq, text_eq, Distinct, true_and, and_true]
  exact places

def Locations.named (entries : List (String × Location)) : Locations :=
  entries.map fun entry => (.str entry.1, entry.2)

theorem Locations.named_injective : Function.Injective Locations.named :=
  List.map_injective_iff.mpr fun _ _ same =>
    Prod.ext (Json.str.inj (Prod.mk.inj same).1) (Prod.mk.inj same).2

theorem Locations.named_cons (entry : String × Location) (entries : List (String × Location)) :
    Locations.named (entry :: entries) = (.str entry.1, entry.2) :: Locations.named entries := rfl

def inOrder (entries : List (String × Location)) : List (String × Location) :=
  entries.mergeSort fun a b => !decide (b.1 < a.1)

theorem inOrder_perm (entries : List (String × Location)) : (inOrder entries).Perm entries :=
  List.mergeSort_perm entries _

theorem inOrder_sorted {entries : List (String × Location)}
    (distinct : (entries.map (·.1)).Nodup) : ((inOrder entries).map (·.1)).Pairwise (· < ·) := by
  have nodup : ((inOrder entries).map (·.1)).Nodup :=
    ((inOrder_perm entries).map _).nodup_iff.mpr distinct
  have sorted : (inOrder entries).Pairwise fun a b => (!decide (b.1 < a.1)) = true :=
    List.pairwise_mergeSort
      (fun a b c first second => by
        simp only [Bool.not_eq_true', decide_eq_false_iff_not, not_lt] at first second ⊢
        exact first.trans second)
      (fun a b => by
        simp only [Bool.or_eq_true, Bool.not_eq_true', decide_eq_false_iff_not, not_lt]
        exact le_total a.1 b.1)
      entries
  refine List.pairwise_map.mpr (sorted.imp₂ (fun a b after ne => ?_) (List.pairwise_map.mp nodup))
  simp only [Bool.not_eq_true', decide_eq_false_iff_not, not_lt] at after
  exact lt_of_le_of_ne after ne

theorem Locations.sortByName_named (entries : List (String × Location)) :
    sortByName (Locations.named entries) = .ok (Locations.named (inOrder entries)) := by
  have text : ∀ entry ∈ Locations.named entries, entry.1.IsText := by
    intro entry member
    obtain ⟨⟨name, location⟩, -, rfl⟩ := List.mem_map.mp member
    exact ⟨name, rfl⟩
  rw [sortByName_of_text text, Locations.named, Locations.named, inOrder]
  exact congrArg Except.ok (Eq.symm (List.map_mergeSort fun a _ b _ => rfl))

theorem Locations.toJson_named (entries : List (String × Location)) :
    (Locations.named entries).toJson =
      .ok (.obj ((inOrder entries).map fun entry => (entry.1, entry.2.toJson))) := by
  rw [Locations.toJson, Locations.sortByName_named]
  exact congrArg (fun fields => Except.ok (Json.obj fields)) (List.map_map ..)

end Source

open Source

namespace Archive

section

variable {entries : List (String × Location)}
  (named : ∀ entry ∈ entries, entry.2.function = .str entry.1)

include named

theorem ofFields_named :
    Locations.ofFields (entries.map fun entry => (entry.1, entry.2.toJson)) =
      .ok (Locations.named entries) := by
  have texts : ∀ entry ∈ Locations.named entries,
      entry.1.IsText ∧ entry.2.function = entry.1 := by
    intro entry member
    obtain ⟨⟨name, location⟩, among, rfl⟩ := List.mem_map.mp member
    exact ⟨⟨name, rfl⟩, named _ among⟩
  have back := Locations.ofFields_of_text texts
  rw [Locations.named, List.map_map] at back
  exact back

theorem parseDatabase_encode (path : String) (distinct : (entries.map (·.1)).Nodup)
    (storable : ∀ entry ∈ entries, entry.2.Storable) :
    parseDatabase path (Text.Utf8.encode
      (Json.obj (entries.map fun entry => (entry.1, entry.2.toJson))).indented) =
        .ok (Locations.named entries) := by
  let document : Json := .obj (entries.map fun entry => (entry.1, entry.2.toJson))
  have unambiguous : document.Distinct := by
    refine ⟨?_, distinctFields_iff.mpr fun field member => ?_⟩
    · rw [List.map_map]
      exact distinct
    · obtain ⟨entry, among, rfl⟩ := List.mem_map.mp member
      exact (storable entry among).distinct_toJson
  have short : accept .wide document = .ok () := by
    refine accept_wide_eq_ok.mpr fun number member => ?_
    rw [numbers, fieldsNumbers_eq] at member
    obtain ⟨field, inside, member⟩ := List.mem_flatMap.mp member
    obtain ⟨entry, among, rfl⟩ := List.mem_map.mp inside
    exact (storable entry among).numbers_toJson number member
  have reads : Json.read .wide document.indented.toList = .ok document := by
    rw [indented_eq, read_append skipped_wide unambiguous, short]
    rfl
  rw [parseDatabase, Text.Utf8.decode?_encode]
  simp only [unifyLineEnds_indented]
  rw [show Json.read .wide _ = .ok document from reads]
  simp only [document, ofFields_named named]
  rfl

end

variable {session : Session}

theorem result_readDatabase (archive : Archive) (session : Session) :
    (archive.readDatabase "").result session =
      (session.tree.read (archive.directory.child databaseFile).text >>=
        parseDatabase (archive.directory.child databaseFile).text, session) := by
  let path := (archive.directory.child databaseFile).text
  change (liftM (session.tree.read path) >>= fun bytes =>
    liftM (parseDatabase path bytes) : Work Locations).result session = _
  rw [Work.result_bind, Work.result_lift]
  cases session.tree.read path with
  | error fault => rfl
  | ok bytes => exact Work.result_lift _ _

/-- The locations that are written to an archive are read from it, in the order of their names. -/
theorem readDatabase_writeDatabase (archive : Archive) {entries : List (String × Location)}
    (distinct : (entries.map (·.1)).Nodup)
    (named : ∀ entry ∈ entries, entry.2.function = .str entry.1)
    (storable : ∀ entry ∈ entries, entry.2.Storable)
    (writable : session.tree.Writable (archive.directory.child databaseFile).text) :
    ∃ sorted stored tree,
      sorted.Perm entries ∧ (sorted.map (·.1)).Pairwise (· < ·) ∧
      (archive.writeDatabase (Locations.named entries)).result session =
        (.ok stored, { session with tree }) ∧
      (archive.readDatabase "").result { session with tree } =
        (.ok (Locations.named sorted), { session with tree }) := by
  let document : Json := .obj ((inOrder entries).map fun entry => (entry.1, entry.2.toJson))
  obtain ⟨tree, stores⟩ := writable.write (Text.Utf8.encode document.indented)
  have perm := inOrder_perm entries
  have writes : (archive.writeDatabase (Locations.named entries)).result session =
      (archive.writeDocument databaseFile document).result session := by
    change (liftM (Locations.named entries).toJson >>= fun document =>
      archive.writeDocument databaseFile document : Work Stored).result session = _
    rw [Locations.toJson_named, Work.result_bind, Work.result_lift]
  refine ⟨inOrder entries, _, tree, perm, inOrder_sorted distinct,
    writes.trans (result_writeDocument stores), ?_⟩
  · have back := parseDatabase_encode (fun entry member => named entry (perm.mem_iff.mp member))
      (archive.directory.child databaseFile).text
      ((perm.map (·.1)).nodup_iff.mpr distinct)
      (fun entry member => storable entry (perm.mem_iff.mp member))
    rw [result_readDatabase, FileTree.read_of_write stores]
    exact congrArg (·, _) back

def sampleDatabase : List (String × Location) :=
  [("udp_sendmsg", {
      function := .str "udp_sendmsg"
      file := .str "net/ipv4/udp.c"
      line := 7
      text := .str "int udp_sendmsg(void) /* \"é\" */\r\n\x7b\n\x7d\n"
      lineCount := 3
      candidates := [(.str "net/ipv4/udp.c", 7), (.str "net/ipv6/udp.c", -9)]
      status := .resolved
      bodyStatus := .complete }),
    ("ip_output", Location.placeholder (.str "ip_output") .timedOut)]

theorem readDatabase_writeDatabase_sample :
    ∃ stored tree,
      (workingArchive.writeDatabase (Locations.named sampleDatabase)).result emptySession =
        (.ok stored, { emptySession with tree }) ∧
      (workingArchive.readDatabase "").result { emptySession with tree } =
        (.ok (Locations.named sampleDatabase.reverse), { emptySession with tree }) := by
  have named : ∀ entry ∈ sampleDatabase, entry.2.function = .str entry.1 := by
    simp [sampleDatabase, Location.placeholder]
  have storable : ∀ entry ∈ sampleDatabase, entry.2.Storable := by
    refine List.forall_mem_cons.mpr ⟨?_, List.forall_mem_singleton.mpr ?_⟩
    · exact ⟨⟨_, rfl⟩, by decide, ⟨_, rfl⟩, by decide, by
        simpa [IsText] using (by decide : (Numeral.int 7).IsShort ∧ (Numeral.int (-9)).IsShort)⟩
    · exact ⟨⟨_, rfl⟩, by decide, ⟨_, rfl⟩, by decide, List.forall_mem_nil _⟩
  have writable : emptySession.tree.Writable (workingArchive.directory.child databaseFile).text :=
    ⟨[], _, emptySession_write_name [] (by decide +kernel)
      (emptySession_locate ⟨by cbv, by decide, by decide⟩ (by decide +kernel) (by decide)
        (by decide) (by decide))⟩
  obtain ⟨sorted, stored, tree, perm, order, writes, reads⟩ :=
    readDatabase_writeDatabase workingArchive (by decide) named storable writable
  have order' : sampleDatabase.reverse.Pairwise fun a b => a.1 < b.1 := by
    simp only [sampleDatabase, List.reverse_cons, List.reverse_nil, List.nil_append,
      List.singleton_append, List.pairwise_pair]
    decide
  obtain rfl : sorted = sampleDatabase.reverse :=
    (perm.trans (List.reverse_perm _).symm).eq_of_pairwise
      (fun a b _ _ before after => absurd (before.trans after) (lt_irrefl _))
      (List.pairwise_map.mp order) order'
  exact ⟨stored, tree, writes, reads⟩

end Archive

end CallTimeline
