import CallTimeline.Proofs.Text.Lines
import CallTimeline.Proofs.Timeline.Entries
import CallTimeline.Proofs.Trace.Stacks

/-!
# Where a direction comes from

The names of the calls around a function are searched as one text. No word of a direction has a blank
in it, so each stands within one of the names (`exists_of_joined`), and the search is one of the
names by themselves (`classify_eq`). So a function has a direction just if a word of one stands in
its own name or in one around it (`classify_ne_other_iff`), which hands directions down from a call
to the calls inside.
-/

namespace CallTimeline

open Text

namespace Text

variable {word left right : List Char} {separator : Char}

theorem append_cons_eq_append (free : separator ∉ word) {xs ys : List Char}
    (split : xs ++ separator :: ys = left ++ word ++ right) :
    (∃ outer, xs = left ++ word ++ outer ∧ right = outer ++ separator :: ys) ∨
      ∃ inner, left = xs ++ separator :: inner ∧ ys = inner ++ word ++ right := by
  -- The separator stands in `left`, in `word` or in `right`.
  obtain ⟨across, reach, rest⟩ | ⟨outer, whole, right_eq⟩ := List.append_eq_append_iff.mp split
  · cases across with
    | nil => exact .inl ⟨[], by simpa using reach.symm, by simpa using rest.symm⟩
    | cons c across =>
        obtain ⟨rfl, rfl⟩ := List.cons.inj rest
        obtain ⟨overlap, -, word_eq⟩ | ⟨overlap, left_eq, word_eq⟩ :=
          List.append_eq_append_iff.mp reach
        · exact absurd (word_eq ▸ List.mem_append_right _ List.mem_cons_self) free
        · obtain ⟨-, word_eq⟩ | ⟨inner, rfl, rfl⟩ := List.cons_eq_append_iff.mp word_eq
          · exact absurd (word_eq ▸ List.mem_cons_self) free
          · exact .inr ⟨inner, left_eq, rfl⟩
  · exact .inl ⟨outer, whole, right_eq⟩

theorem intercalate_cons (separator : Char) (part : List Char) (parts : List (List Char)) :
    [separator].intercalate (part :: parts) = part ++ parts.flatMap (separator :: ·) := by
  induction parts generalizing part with
  | nil => simp
  | cons next parts ih => rw [List.intercalate_cons_cons, ih, List.flatMap_cons]; simp

theorem exists_of_intercalate (filled : word ≠ []) (free : separator ∉ word)
    {parts : List (List Char)} (joined : [separator].intercalate parts = left ++ word ++ right) :
    ∃ before part after inner outer, parts = before ++ part :: after ∧
      part = inner ++ word ++ outer ∧ left = before.flatMap (· ++ [separator]) ++ inner ∧
      right = outer ++ after.flatMap (separator :: ·) := by
  induction parts generalizing left with
  | nil => simp_all
  | cons part parts ih =>
      cases parts with
      | nil =>
          refine ⟨[], part, [], left, right, rfl, ?_, rfl, (List.append_nil right).symm⟩
          simpa using joined
      | cons next parts =>
          rw [List.intercalate_cons_cons, List.append_assoc, List.singleton_append] at joined
          obtain ⟨outer, part_eq, right_eq⟩ | ⟨inner, rfl, later⟩ :=
            append_cons_eq_append free joined
          · rw [intercalate_cons] at right_eq
            exact ⟨[], part, next :: parts, left, outer, rfl, part_eq, rfl, right_eq⟩
          · obtain ⟨before, found, after, inner', outer, parts_eq, found_eq, rfl, right_eq⟩ :=
              ih later
            refine ⟨part :: before, found, after, inner', outer, ?_, found_eq, ?_, right_eq⟩
            · rw [parts_eq, List.cons_append]
            · simp

theorem infix_intercalate_iff (filled : word ≠ []) (free : separator ∉ word)
    {parts : List (List Char)} :
    word <:+: [separator].intercalate parts ↔ ∃ part ∈ parts, word <:+: part := by
  constructor
  · rintro ⟨left, right, joined⟩
    obtain ⟨before, part, after, inner, outer, rfl, found, -⟩ :=
      exists_of_intercalate filled free joined.symm
    exact ⟨part, by simp, inner, outer, found.symm⟩
  · rintro ⟨part, member, found⟩
    refine found.trans ?_
    induction parts with
    | nil => cases member
    | cons first parts ih =>
        obtain rfl | later := List.mem_cons.mp member
        · rw [intercalate_cons]
          exact (List.prefix_append _ _).isInfix
        · obtain ⟨next, rest, rfl⟩ := List.exists_cons_of_ne_nil (List.ne_nil_of_mem later)
          rw [List.intercalate_cons_cons]
          exact (ih later).trans (List.suffix_append _ _).isInfix

end Text

namespace Direction

def words (direction : Direction) : List String :=
  (rules.lookup direction).getD []

def Tells (direction : Direction) (name : String) : Prop :=
  ∃ word ∈ direction.words, word.toList <:+: lower name.toList

theorem any_occurs_iff {direction : Direction} {name : String} :
    (direction.words.any fun word => occurs word.toList (lower name.toList)) = true ↔
      direction.Tells name := by
  simp only [List.any_eq_true, occurs_iff_infix, Tells]

instance (direction : Direction) : DecidablePred direction.Tells :=
  fun _ => decidable_of_iff _ any_occurs_iff

theorem ofText?_eq (text : String) :
    ofText? text =
      if transmit.Tells text then some transmit
      else if receive.Tells text then some receive
      else none := by
  let tells (rule : Direction × List String) : Bool :=
    rule.2.any fun word => occurs word.toList (lower text.toList)
  have tells_iff (direction : Direction) :
      tells (direction, direction.words) = true ↔ direction.Tells text := any_occurs_iff
  change ([(transmit, transmit.words), (receive, receive.words)].find? tells).map (·.1) = _
  by_cases sends : transmit.Tells text
  · rw [List.find?_cons_of_pos ((tells_iff _).mpr sends), if_pos sends]
    rfl
  · rw [List.find?_cons_of_neg (mt (tells_iff _).mp sends), if_neg sends]
    by_cases receives : receive.Tells text
    · rw [List.find?_cons_of_pos ((tells_iff _).mpr receives), if_pos receives]
      rfl
    · rw [List.find?_cons_of_neg (mt (tells_iff _).mp receives), if_neg receives]
      rfl

theorem word_filled {direction : Direction} {word : String} (member : word ∈ direction.words) :
    word.toList ≠ [] ∧ ' ' ∉ word.toList := by
  cases direction <;> revert word <;> decide

theorem lower_joined (names : List String) :
    lower (" ".intercalate names).toList =
      [' '].intercalate (names.map fun name => lower name.toList) := by
  rw [String.toList_intercalate]
  change lower ([' '].intercalate _) = _
  cases names with
  | nil => rfl
  | cons name names =>
      rw [List.map_cons, List.map_cons, intercalate_cons, intercalate_cons, lower,
        List.flatMap_append, List.flatMap_assoc, List.flatMap_map, List.flatMap_map]
      rfl

theorem exists_of_joined {direction : Direction} {word : String} (member : word ∈ direction.words)
    {names : List String} {left right : List Char}
    (joined : lower (" ".intercalate names).toList = left ++ word.toList ++ right) :
    ∃ before name after inner outer, names = before ++ name :: after ∧
      lower name.toList = inner ++ word.toList ++ outer ∧
      left = (before.flatMap fun name => lower name.toList ++ [' ']) ++ inner ∧
      right = outer ++ after.flatMap fun name => ' ' :: lower name.toList := by
  obtain ⟨filled, free⟩ := word_filled member
  rw [lower_joined] at joined
  obtain ⟨_, _, _, inner, outer, parts, found, left_eq, right_eq⟩ :=
    exists_of_intercalate filled free joined
  obtain ⟨before, rest, names_eq, rfl, rest_eq⟩ := List.map_eq_append_iff.mp parts
  obtain ⟨name, after, rfl, rfl, rfl⟩ := List.map_eq_cons_iff.mp rest_eq
  rw [List.flatMap_map] at left_eq right_eq
  exact ⟨before, name, after, inner, outer, names_eq, found, left_eq, right_eq⟩

theorem tells_joined (direction : Direction) (names : List String) :
    direction.Tells (" ".intercalate names) ↔ ∃ name ∈ names, direction.Tells name := by
  constructor
  · rintro ⟨word, member, found⟩
    obtain ⟨filled, free⟩ := word_filled member
    rw [lower_joined, infix_intercalate_iff filled free] at found
    obtain ⟨_, among, found⟩ := found
    obtain ⟨name, inside, rfl⟩ := List.mem_map.mp among
    exact ⟨name, inside, word, member, found⟩
  · rintro ⟨name, inside, word, member, found⟩
    obtain ⟨filled, free⟩ := word_filled member
    refine ⟨word, member, ?_⟩
    rw [lower_joined, infix_intercalate_iff filled free]
    exact ⟨_, List.mem_map_of_mem inside, found⟩

variable (function : String) (around : List String)

theorem classify_eq :
    classify function around =
      if transmit.Tells function then transmit
      else if receive.Tells function then receive
      else if ∃ name ∈ around, transmit.Tells name then transmit
      else if ∃ name ∈ around, receive.Tells name then receive
      else other := by
  rw [classify, ofText?_eq, ofText?_eq]
  simp only [tells_joined]
  split_ifs <;> rfl

theorem classify_ne_other_iff :
    classify function around ≠ other ↔
      ∃ name ∈ function :: around, transmit.Tells name ∨ receive.Tells name := by
  rw [classify_eq, List.exists_mem_cons_iff]
  split_ifs with sends receives sent received
  · exact iff_of_true (by decide) (.inl (.inl sends))
  · exact iff_of_true (by decide) (.inl (.inr receives))
  · obtain ⟨name, member, sends⟩ := sent
    exact iff_of_true (by decide) (.inr ⟨name, member, .inl sends⟩)
  · obtain ⟨name, member, receives⟩ := received
    exact iff_of_true (by decide) (.inr ⟨name, member, .inr receives⟩)
  · refine iff_of_false (not_not.mpr rfl) ?_
    rintro ((own | own) | ⟨name, member, among | among⟩)
    · exact sends own
    · exact receives own
    · exact sent ⟨name, member, among⟩
    · exact received ⟨name, member, among⟩

variable {function around} in
theorem classify_perm {around' : List String} (perm : around.Perm around') :
    classify function around = classify function around' := by
  simp only [classify_eq, perm.mem_iff]

end Direction

namespace Timeline

open Trace

variable {settings : Trace.Settings} {lines : List (List Char)} {replay : Replay}

theorem function_mem_stack (h : Replay.run settings lines = .ok replay) {event : Event}
    (member : event ∈ replay.events.toList) :
    ∃ frame ∈ event.stack, frame.function = event.function := by
  obtain ⟨own, last, same⟩ := Replay.endsOwn_of_run h (List.mem_map_of_mem member)
  exact ⟨own, List.mem_of_getLast? last, same⟩

theorem classify_of_prefix (h : Replay.run settings lines = .ok replay) {event outer : Event}
    (member : outer ∈ replay.events.toList) (inside : outer.stack <+: event.stack.dropLast)
    (known : classify outer ≠ .other) : classify event ≠ .other := by
  rw [classify, Direction.classify_ne_other_iff] at known ⊢
  obtain ⟨name, among, tells⟩ := known
  obtain ⟨frame, onStack, rfl⟩ : ∃ frame ∈ outer.stack, frame.function = name := by
    obtain rfl | around := List.mem_cons.mp among
    · exact function_mem_stack h member
    · obtain ⟨frame, onStack, same⟩ := List.mem_map.mp around
      exact ⟨frame, List.dropLast_subset _ onStack, same⟩
  exact ⟨_, List.mem_cons_of_mem _ (List.mem_map_of_mem (inside.subset onStack)), tells⟩

theorem map_str_injective : Function.Injective (Frame.map Json.str) := by
  rintro ⟨_, _, _, _⟩ ⟨_, _, _, _⟩ same
  simpa [Frame.map] using same

/-- A function is told by its own name, and by the names around it only if it is not: each of them is
searched by itself, sending before receiving. Their order does not matter, and where a word stands in
the joined names, it stands within one of them. So in the timeline of a trace, the calls inside one
that has a direction have a direction too. -/
theorem classify_namewise :
    (∀ (function : String) (around : List String), Direction.classify function around =
      if Direction.transmit.Tells function then .transmit
      else if Direction.receive.Tells function then .receive
      else if ∃ name ∈ around, Direction.transmit.Tells name then .transmit
      else if ∃ name ∈ around, Direction.receive.Tells name then .receive
      else .other) ∧
    (∀ (function : String) (around around' : List String), around.Perm around' →
      Direction.classify function around = Direction.classify function around') ∧
    (∀ (direction : Direction), ∀ word ∈ direction.words, ∀ (names : List String)
        (left right : List Char),
      lower (" ".intercalate names).toList = left ++ word.toList ++ right →
      ∃ before name after inner outer, names = before ++ name :: after ∧
        lower name.toList = inner ++ word.toList ++ outer ∧
        left = (before.flatMap fun name => lower name.toList ++ [' ']) ++ inner ∧
        right = outer ++ after.flatMap fun name => ' ' :: lower name.toList) ∧
    ∀ (settings : Trace.Settings) (lines : List (List Char)) (replay : Replay),
      Replay.run settings lines = .ok replay →
      ∀ entry ∈ (ofReplay settings replay).entries, ∀ outer ∈ (ofReplay settings replay).entries,
        outer.stack <+: entry.stack.dropLast → outer.classified ≠ .other →
        entry.classified ≠ .other := by
  refine ⟨Direction.classify_eq, fun function around around' => Direction.classify_perm, ?_, ?_⟩
  · intro direction word member names left right joined
    exact Direction.exists_of_joined member joined
  · intro settings lines replay run entry member outer member' inside known
    have views : (ofReplay settings replay).entries.map (fun entry =>
          (entry.stack, entry.classified)) =
        replay.events.toList.map fun event =>
          (event.stack.map (Frame.map .str), classify event) :=
      map_ofReplay settings (fun _ _ _ => rfl) (Replay.numbered_of_run run)
    obtain ⟨event, among, same⟩ := List.mem_map.mp (views ▸ List.mem_map_of_mem member)
    obtain ⟨event', among', same'⟩ := List.mem_map.mp (views ▸ List.mem_map_of_mem member')
    obtain ⟨stack_eq, classified_eq⟩ := Prod.ext_iff.mp same
    obtain ⟨stack_eq', classified_eq'⟩ := Prod.ext_iff.mp same'
    dsimp only at stack_eq stack_eq' classified_eq classified_eq'
    rw [← stack_eq, ← stack_eq', ← List.map_dropLast] at inside
    obtain ⟨frames, initial, frames_eq⟩ := List.prefix_map_iff.mp inside
    rw [List.map_injective_iff.mpr map_str_injective frames_eq.symm] at initial
    rw [← classified_eq'] at known
    rw [← classified_eq]
    exact classify_of_prefix run among' initial known

theorem classify_namewise_leaf :
    let lines := ["0)   |IP_Output() \x7b".toList, "0)   |  dst_ops() \x7b".toList,
      "0)   |    leaf();".toList]
    ∃ replay, Replay.run {} lines = .ok replay ∧
      ∃ outer ∈ (ofReplay {} replay).entries, ∃ entry ∈ (ofReplay {} replay).entries,
        outer.classified = .transmit ∧ outer.stack <+: entry.stack.dropLast ∧
        entry.function = .str "leaf" ∧ entry.classified ≠ .other := by
  intro lines
  let frames : List (Frame String) := [Replay.frameOf {} "IP_Output" 0,
    Replay.frameOf {} "dst_ops" 1, Replay.frameOf {} "leaf" 2]
  let given : List (String × List (Frame String) × Direction) :=
    [("IP_Output", frames.take 1, .transmit), ("dst_ops", frames.take 2, .transmit),
      ("leaf", frames, .transmit)]
  have finishes : ((Replay.run {} lines).map fun replay => replay.events.toList.map fun event =>
      (event.function, event.stack, classify event)) = .ok given := by rfl
  obtain ⟨replay, run, events_eq⟩ := of_map_ok finishes
  let view (shown : String × List (Frame String) × Direction) :=
    (Json.str shown.1, shown.2.1.map (Frame.map Json.str), shown.2.2)
  have views : (ofReplay {} replay).entries.map (fun entry =>
        (entry.function, entry.stack, entry.classified)) =
      (replay.events.toList.map fun event =>
        (event.function, event.stack, classify event)).map view := by
    rw [List.map_map]
    exact map_ofReplay {} (fun _ _ _ => rfl) (Replay.numbered_of_run run)
  rw [events_eq] at views
  have entryOf {shown} (member : shown ∈ given) : ∃ entry ∈ (ofReplay {} replay).entries,
      (entry.function, entry.stack, entry.classified) = view shown :=
    List.mem_map.mp (views ▸ List.mem_map_of_mem member)
  obtain ⟨outer, member, outer_eq⟩ := entryOf (.head _)
  obtain ⟨entry, member', entry_eq⟩ := entryOf (.tail _ (.tail _ (.head _)))
  simp only [view, Prod.mk.injEq] at outer_eq entry_eq
  have inside : outer.stack <+: entry.stack.dropLast := by
    rw [outer_eq.2.1, entry_eq.2.1]
    exact ⟨[Frame.map .str (Replay.frameOf {} "dst_ops" 1)], rfl⟩
  refine ⟨replay, run, outer, member, entry, member', outer_eq.2.2, inside, entry_eq.1, ?_⟩
  refine classify_namewise.2.2.2 {} lines replay run entry member' outer member inside ?_
  rw [outer_eq.2.2]
  decide

end Timeline

end CallTimeline
