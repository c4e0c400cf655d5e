import CallTimeline.Proofs.Text.Trim
import CallTimeline.Trace.Body

/-!
# The forms of a body

`Spelled` says which texts enter, leave or call a function, and leaves open how this is found out. A
text has one of these forms at most, and only one token (`Spelled.unique`). On one line, it is the
form that is read (`read?_eq_some_iff`), so the forms may be tried in any order (`findSome?_forms`).
-/

namespace CallTimeline.Trace

open Text

/-! ## Tokens and their arguments -/

def IsGap (text : List Char) : Prop :=
  ∀ c ∈ text, isBlank c = true

inductive IsTag : List Char → Prop
  | intro {gap inside : List Char} (filled : gap ≠ []) (blank : IsGap gap) (closed : ']' ∉ inside) :
    IsTag (gap ++ '[' :: inside ++ [']'])

inductive IsToken : List Char → Prop
  | intro {name tag : List Char} (filled : name ≠ []) (chars : ∀ c ∈ name, isTokenChar c = true)
    (tagged : tag = [] ∨ IsTag tag) : IsToken (name ++ tag)

inductive Signed (token rest : List Char) : List Char → Prop
  | intro {gap : List Char} (isToken : IsToken token) (blank : IsGap gap) :
    Signed token rest (token ++ (gap ++ '(' :: ')' :: rest))

variable {text token tag rest gap : List Char}

theorem tag?_append (isTag : IsTag tag) (rest : List Char) :
    tag? (tag ++ rest) = some (tag, rest) := by
  obtain @⟨gap, inside, filled, blank, closed⟩ := isTag
  have shown : gap ++ '[' :: inside ++ [']'] ++ rest = gap ++ '[' :: (inside ++ ']' :: rest) := by
    simp
  have cut : (gap ++ '[' :: (inside ++ ']' :: rest)).span isBlank =
      (gap, '[' :: (inside ++ ']' :: rest)) :=
    span_append blank (by simp; decide)
  rw [tag?, shown, cut]
  obtain ⟨c, more, rfl⟩ := List.exists_cons_of_ne_nil filled
  simp [cutAt?_append closed]

theorem tag?_gap (blank : IsGap gap) (rest : List Char) : tag? (gap ++ '(' :: rest) = none := by
  have cut : (gap ++ '(' :: rest).span isBlank = (gap, '(' :: rest) :=
    span_append blank (by simp; decide)
  rw [tag?, cut]
  cases gap <;> rfl

theorem isTag_of_tag? (h : tag? text = some (tag, rest)) : IsTag tag ∧ text = tag ++ rest := by
  unfold tag? at h
  split at h
  case h_1 => cases h
  case h_2 gap behind filled cut =>
    obtain ⟨⟨inside, after⟩, found, same⟩ := Option.map_eq_some_iff.mp h
    cases same
    obtain ⟨rfl, closed⟩ := eq_append_of_cutAt? found
    rw [List.span_eq_takeWhile_dropWhile, Prod.mk.injEq] at cut
    have blank : IsGap gap := cut.1 ▸ fun c member => List.mem_takeWhile_imp member
    refine ⟨.intro (fun empty => filled empty) blank closed, ?_⟩
    rw [← List.takeWhile_append_dropWhile (p := isBlank) (l := text), cut.1, cut.2]
    simp
  case h_3 => cases h

theorem IsTag.head? (isTag : IsTag tag) : ∃ c, tag.head? = some c ∧ isBlank c = true := by
  obtain @⟨gap, inside, filled, blank, closed⟩ := isTag
  obtain ⟨c, more, rfl⟩ := List.exists_cons_of_ne_nil filled
  exact ⟨c, rfl, blank c List.mem_cons_self⟩

theorem isTokenChar_of_isBlank {c : Char} (blank : isBlank c = true) : isTokenChar c = false := by
  simp [isTokenChar, blank]

theorem head?_gap (blank : IsGap gap) (rest : List Char) :
    ∀ c ∈ (gap ++ '(' :: rest).head?, isTokenChar c = false := by
  cases gap with
  | nil => simp; decide
  | cons c gap => simpa using isTokenChar_of_isBlank (blank c List.mem_cons_self)

theorem token?_append (isToken : IsToken token) (blank : IsGap gap) (rest : List Char) :
    token? (token ++ (gap ++ '(' :: rest)) = some (token, gap ++ '(' :: rest) := by
  obtain @⟨name, tag, filled, chars, tagged⟩ := isToken
  have edge : ∀ c ∈ (tag ++ (gap ++ '(' :: rest)).head?, isTokenChar c = false := by
    rcases tagged with rfl | isTag
    · exact head?_gap blank rest
    · obtain ⟨c, first, isBlank_⟩ := isTag.head?
      simpa [List.head?_append, first] using isTokenChar_of_isBlank isBlank_
  rw [List.append_assoc, token?, span_append chars edge]
  obtain ⟨c, more, rfl⟩ := List.exists_cons_of_ne_nil filled
  rcases tagged with rfl | isTag
  · simp [tag?_gap blank]
  · simp [tag?_append isTag]

theorem isToken_of_token? (h : token? text = some (token, rest)) :
    IsToken token ∧ text = token ++ rest := by
  unfold token? at h
  split at h
  case h_1 => cases h
  case h_2 name behind filled cut =>
    rw [List.span_eq_takeWhile_dropWhile, Prod.mk.injEq] at cut
    have chars : ∀ c ∈ name, isTokenChar c = true :=
      cut.1 ▸ fun c member => List.mem_takeWhile_imp member
    have whole : text = name ++ behind := by
      rw [← List.takeWhile_append_dropWhile (p := isTokenChar) (l := text), cut.1, cut.2]
    have named : name ≠ [] := fun empty => filled empty
    split at h
    case h_1 tag after tagged =>
      cases h
      obtain ⟨isTag, rfl⟩ := isTag_of_tag? tagged
      exact ⟨.intro named chars (.inr isTag), by rw [whole, List.append_assoc]⟩
    case h_2 =>
      cases h
      exact ⟨by simpa using IsToken.intro named chars (.inl rfl), whole⟩

theorem afterArguments?_append (blank : IsGap gap) (rest : List Char) :
    afterArguments? (gap ++ '(' :: ')' :: rest) = some rest := by
  have open_ : (gap ++ '(' :: ')' :: rest).dropWhile isBlank = '(' :: ')' :: rest :=
    dropWhile_append_of_head? blank (by simp; decide)
  rw [afterArguments?, open_]
  exact List.isPrefixOf?_eq_some_iff_append_eq.mpr rfl

theorem exists_of_afterArguments? (h : afterArguments? text = some rest) :
    ∃ gap, IsGap gap ∧ text = gap ++ '(' :: ')' :: rest := by
  have open_ : '(' :: ')' :: rest = text.dropWhile isBlank :=
    List.isPrefixOf?_eq_some_iff_append_eq.mp h
  refine ⟨text.takeWhile isBlank, fun c member => List.mem_takeWhile_imp member, ?_⟩
  rw [open_, List.takeWhile_append_dropWhile]

theorem signed_iff :
    Signed token rest text ↔
      ∃ behind, token? text = some (token, behind) ∧ afterArguments? behind = some rest := by
  constructor
  · rintro @⟨gap, isToken, blank⟩
    exact ⟨_, token?_append isToken blank _, afterArguments?_append blank rest⟩
  · rintro ⟨behind, found, after⟩
    obtain ⟨isToken, rfl⟩ := isToken_of_token? found
    obtain ⟨gap, blank, rfl⟩ := exists_of_afterArguments? after
    exact .intro isToken blank

theorem signed_bind_iff (ends : List Char → Bool) :
    ((token? text).bind fun (token', behind) => (afterArguments? behind).bind fun rest =>
        if ends rest then some token' else none) = some token ↔
      ∃ rest, Signed token rest text ∧ ends rest = true := by
  constructor
  · intro h
    obtain ⟨⟨token', behind⟩, found, h⟩ := Option.bind_eq_some_iff.mp h
    obtain ⟨rest, after, h⟩ := Option.bind_eq_some_iff.mp h
    split at h
    case isTrue ended =>
      cases h
      exact ⟨rest, signed_iff.mpr ⟨behind, found, after⟩, ended⟩
    case isFalse => cases h
  · rintro ⟨rest, signed, ended⟩
    obtain ⟨behind, found, after⟩ := signed_iff.mp signed
    simp [found, after, ended]

theorem enter?_iff_signed :
    enter? text = some token ↔ ∃ rest, Signed token rest text ∧ rest.dropWhile isBlank = ['\x7b'] := by
  refine (signed_bind_iff fun rest => rest.dropWhile isBlank == ['\x7b']).trans ?_
  simp only [beq_iff_eq]

theorem call?_iff_signed :
    call? text = some token ↔ ∃ rest, Signed token rest text ∧ rest.head? = some ';' := by
  refine (signed_bind_iff fun rest => rest.head? == some ';').trans ?_
  simp only [beq_iff_eq]

theorem Signed.unique {token' rest' : List Char} (h : Signed token rest text)
    (h' : Signed token' rest' text) : token = token' ∧ rest = rest' := by
  obtain ⟨behind, found, after⟩ := signed_iff.mp h
  obtain ⟨behind', found', after'⟩ := signed_iff.mp h'
  obtain ⟨rfl, rfl⟩ := Prod.mk.inj (Option.some.inj (found.symm.trans found'))
  exact ⟨rfl, Option.some.inj (after.symm.trans after')⟩

theorem Signed.head? (h : Signed token rest text) :
    ∃ c, text.head? = some c ∧ isTokenChar c = true := by
  obtain @⟨gap, isToken, blank⟩ := h
  obtain @⟨name, tag, filled, chars, tagged⟩ := isToken
  obtain ⟨c, more, rfl⟩ := List.exists_cons_of_ne_nil filled
  exact ⟨c, rfl, chars c List.mem_cons_self⟩

/-! ## Forms -/

def IsEnd (text : List Char) : Prop :=
  text = [] ∨ text = ['\n']

inductive Spelled : Body → List Char → Prop
  | enter {token gap ending text : List Char} (signed : Signed token (gap ++ '\x7b' :: ending) text)
    (blank : IsGap gap) (isEnd : IsEnd ending) : Spelled (.enter token) text
  | leave {ending : List Char} (isEnd : IsEnd ending) : Spelled .leave ('\x7d' :: ending)
  | leaveNoted {gap note ending : List Char} (blank : IsGap gap) (oneLine : '\n' ∉ note)
    (isEnd : IsEnd ending) :
    Spelled .leave ('\x7d' :: (gap ++ '/' :: '*' :: (note ++ '*' :: '/' :: ending)))
  | call {token rest text : List Char} (signed : Signed token (';' :: rest) text) :
    Spelled (.call token) text

variable {form form' : Body}

inductive Marked (text : List Char) : Body → Prop
  | enter {token rest : List Char} (signed : Signed token rest text)
    (mark : ∀ c ∈ rest.head?, c ≠ ';') : Marked text (.enter token)
  | leave (mark : text.head? = some '\x7d') : Marked text .leave
  | call {token rest : List Char} (signed : Signed token rest text) (mark : rest.head? = some ';') :
    Marked text (.call token)

theorem Spelled.marked (h : Spelled form text) : Marked text form := by
  cases h with
  | enter signed blank isEnd =>
      rename_i gap ending
      refine .enter signed ?_
      cases gap with
      | nil => simp
      | cons c gap =>
          rintro _ ⟨⟩ rfl
          exact absurd (blank ';' List.mem_cons_self) (by decide)
  | leave isEnd => exact .leave rfl
  | leaveNoted blank oneLine isEnd => exact .leave rfl
  | call signed => exact .call signed rfl

theorem Signed.not_leave (signed : Signed token rest text) : text.head? ≠ some '\x7d' := by
  obtain ⟨c, first, isChar⟩ := signed.head?
  rintro mark
  rw [first, Option.some.injEq] at mark
  subst mark
  exact absurd isChar (by decide)

theorem Marked.unique (h : Marked text form) (h' : Marked text form') : form = form' := by
  cases h with
  | enter signed mark =>
      cases h' with
      | enter signed' mark' => rw [(signed.unique signed').1]
      | leave mark' => exact absurd mark' signed.not_leave
      | call signed' mark' =>
          obtain ⟨-, rfl⟩ := signed.unique signed'
          exact absurd rfl (mark ';' mark')
  | leave mark =>
      cases h' with
      | enter signed' mark' => exact absurd mark signed'.not_leave
      | leave mark' => rfl
      | call signed' mark' => exact absurd mark signed'.not_leave
  | call signed mark =>
      cases h' with
      | enter signed' behind =>
          obtain ⟨-, rfl⟩ := signed.unique signed'
          exact absurd rfl (behind ';' mark)
      | leave mark' => exact absurd mark' signed.not_leave
      | call signed' mark' => rw [(signed.unique signed').1]

theorem Spelled.unique (h : Spelled form text) (h' : Spelled form' text) : form = form' :=
  h.marked.unique h'.marked

/-! ## What is read -/

theorem IsEnd.eq_nil {ending : List Char} (isEnd : IsEnd ending) (oneLine : '\n' ∉ ending) :
    ending = [] := by
  rcases isEnd with rfl | rfl
  · rfl
  · simp at oneLine

theorem Signed.subset (signed : Signed token rest text) : rest ⊆ text := by
  obtain @⟨gap, isToken, blank⟩ := signed
  intro c member
  simp [member]

def Body.forms : List (List Char → Option Body) :=
  [fun text => (enter? text).map .enter,
    fun text => if isLeave text then some .leave else none,
    fun text => (call? text).map .call]

theorem findSome?_body_forms (text : List Char) :
    Body.forms.findSome? (· text) = Body.read? text := by
  unfold Body.forms Body.read?
  cases enters : enter? text with
  | some token => simp [enters]
  | none =>
      cases leaves : isLeave text with
      | true => simp [enters, leaves]
      | false => cases calls : call? text <;> simp [enters, leaves, calls]

theorem isComment_iff :
    isComment text = true ↔ ∃ note, text = '/' :: '*' :: (note ++ ['*', '/']) := by
  unfold isComment
  constructor
  · intro h
    split at h
    case h_1 behind opens =>
      obtain ⟨note, rfl⟩ := List.isSuffixOf_iff_suffix.mp h
      exact ⟨note, (List.isPrefixOf?_eq_some_iff_append_eq.mp opens).symm⟩
    case h_2 => cases h
  · rintro ⟨note, rfl⟩
    have opens : "/*".toList.isPrefixOf? ('/' :: '*' :: (note ++ ['*', '/'])) =
        some (note ++ ['*', '/']) :=
      List.isPrefixOf?_eq_some_iff_append_eq.mpr rfl
    rw [opens]
    exact List.isSuffixOf_iff_suffix.mpr ⟨note, rfl⟩

section

variable (oneLine : '\n' ∉ text)

include oneLine

theorem enter?_eq_some_iff : enter? text = some token ↔ Spelled (.enter token) text := by
  rw [enter?_iff_signed]
  constructor
  · rintro ⟨rest, signed, opens⟩
    have rest_eq : rest = rest.takeWhile isBlank ++ ['\x7b'] := by
      rw [← opens, List.takeWhile_append_dropWhile]
    refine .enter (rest_eq ▸ signed) ?_ (.inl rfl)
    exact fun c member => List.mem_takeWhile_imp member
  · intro h
    cases h with
    | enter signed blank isEnd =>
        rename_i gap ending
        have closed : ending = [] := isEnd.eq_nil fun member =>
          oneLine (signed.subset (by simp [member]))
        subst closed
        exact ⟨_, signed, dropWhile_append_of_head? blank (by simp; decide)⟩

theorem isLeave_iff : isLeave text = true ↔ Spelled .leave text := by
  constructor
  · intro h
    unfold isLeave at h
    split at h
    case h_1 behind =>
      rcases Bool.or_eq_true_iff.mp h with bare | comment
      · rw [List.isEmpty_iff.mp bare]
        exact .leave (.inl rfl)
      · obtain ⟨note, noted⟩ := isComment_iff.mp comment
        have behind_eq : behind =
            behind.takeWhile isBlank ++ '/' :: '*' :: (note ++ '*' :: '/' :: []) := by
          rw [← noted, List.takeWhile_append_dropWhile]
        rw [behind_eq] at oneLine ⊢
        refine .leaveNoted (fun c member => List.mem_takeWhile_imp member) ?_ (.inl rfl)
        exact fun member => oneLine (by simp [member])
    case h_2 => cases h
  · intro h
    cases h with
    | leave isEnd =>
        rw [isEnd.eq_nil fun member => oneLine (List.mem_cons_of_mem _ member)]
        rfl
    | leaveNoted blank noFeed isEnd =>
        rename_i gap note ending
        obtain rfl : ending = [] := isEnd.eq_nil fun member => oneLine (by simp [member])
        have comment : (gap ++ '/' :: '*' :: (note ++ ['*', '/'])).dropWhile isBlank =
            '/' :: '*' :: (note ++ ['*', '/']) :=
          dropWhile_append_of_head? blank (by simp; decide)
        rw [isLeave, comment, isComment_iff.mpr ⟨note, rfl⟩, Bool.or_true]

omit oneLine in
theorem call?_eq_some_iff : call? text = some token ↔ Spelled (.call token) text := by
  rw [call?_iff_signed]
  constructor
  · rintro ⟨rest, signed, mark⟩
    obtain ⟨rest', rfl⟩ := List.head?_eq_some_iff.mp mark
    exact .call signed
  · intro h
    cases h with
    | call signed => exact ⟨_, signed, rfl⟩

theorem exists_forms_iff :
    (∃ find ∈ Body.forms, find text = some form) ↔ Spelled form text := by
  simp only [Body.forms, List.mem_cons, List.not_mem_nil, or_false, exists_eq_or_imp,
    exists_eq_left, Option.map_eq_some_iff, Option.ite_none_right_eq_some, Option.some.injEq]
  cases form with
  | enter token => simp [enter?_eq_some_iff oneLine]
  | leave => simp [isLeave_iff oneLine]
  | call token => simp [call?_eq_some_iff]

theorem findSome?_eq_some_iff_spelled {forms : List (List Char → Option Body)}
    (perm : forms.Perm Body.forms) :
    forms.findSome? (· text) = some form ↔ Spelled form text := by
  have spelled (form : Body) : (∃ find ∈ forms, find text = some form) ↔ Spelled form text := by
    simp only [perm.mem_iff, exists_forms_iff oneLine]
  constructor
  · intro h
    exact (spelled form).mp (List.exists_of_findSome?_eq_some h)
  · intro h
    obtain ⟨find, member, found⟩ := (spelled form).mpr h
    have some : (forms.findSome? (· text)).isSome := by
      refine List.findSome?_isSome_iff.mpr ⟨find, member, ?_⟩
      rw [found]
      rfl
    obtain ⟨form', first⟩ := Option.isSome_iff_exists.mp some
    obtain rfl : form' = form :=
      ((spelled form').mp (List.exists_of_findSome?_eq_some first)).unique h
    exact first

theorem read?_eq_some_iff : Body.read? text = some form ↔ Spelled form text := by
  rw [← findSome?_body_forms]
  exact findSome?_eq_some_iff_spelled oneLine (.refl _)

theorem findSome?_forms {forms : List (List Char → Option Body)} (perm : forms.Perm Body.forms) :
    forms.findSome? (· text) = Body.read? text := by
  refine Option.ext fun form => ?_
  rw [findSome?_eq_some_iff_spelled oneLine perm, read?_eq_some_iff oneLine]

end

end CallTimeline.Trace
