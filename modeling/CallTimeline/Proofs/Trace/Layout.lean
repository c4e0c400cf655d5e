import CallTimeline.Proofs.Trace.Forms
import CallTimeline.Proofs.Trace.Reading
import Mathlib.Data.List.TakeWhile

namespace CallTimeline.Trace

open Text

structure IsBody (body : List Char) : Prop where
  first : ∃ c, body.head? = some c ∧ isBlank c = false
  last : ∀ c ∈ body.getLast?, isBlank c = false
  oneLine : '\n' ∉ body

theorem IsBody.ne_nil {body : List Char} (h : IsBody body) : body ≠ [] := by
  rintro rfl
  obtain ⟨c, first, -⟩ := h.first
  cases first

theorem IsBody.head? {body : List Char} (h : IsBody body) :
    ∀ c ∈ body.head?, isBlank c = false := by
  obtain ⟨c, first, blank⟩ := h.first
  intro d member
  rw [first, Option.mem_some_iff] at member
  exact member ▸ blank

theorem ne_of_isBlank {c d : Char} (hc : isBlank c = false) (hd : isBlank d = true) : c ≠ d := by
  rintro rfl
  rw [hc] at hd
  exact Bool.false_ne_true hd

theorem indentedBody?_replicate {body : List Char} (h : IsBody body) (indent : Nat) :
    indentedBody? (List.replicate indent ' ' ++ body) = some (indent, body) := by
  obtain ⟨c, first, blank⟩ := h.first
  have spaces : (List.replicate indent ' ' ++ body).span (· == ' ') =
      (List.replicate indent ' ', body) := by
    refine span_append (fun c member => by simp [List.eq_of_mem_replicate member]) ?_
    intro c member
    exact beq_eq_false_iff_ne.mpr (ne_of_isBlank (h.head? c member) (by decide))
  rw [indentedBody?, spaces]
  simp [dropEndWhile_of_getLast? h.last, h.ne_nil, first, blank, h.oneLine]

theorem innerColumns?_of_task {task duration body : List Char} (bar : '|' ∉ task)
    (bar' : '|' ∉ duration) (h : IsBody body) (indent : Nat) :
    innerColumns? (task ++ '|' :: (duration ++ '|' :: (List.replicate indent ' ' ++ body))) =
      some (trim task, duration, indent, body) := by
  simp [innerColumns?, cutAt?_append bar, cutAt?_append bar', indentedBody?_replicate h]

structure TimeColumn where
  whole : List Char
  fraction : List Char
  whole_filled : whole ≠ []
  fraction_filled : fraction ≠ []
  whole_digits : ∀ c ∈ whole, isDigit c = true
  fraction_digits : ∀ c ∈ fraction, isDigit c = true

def TimeColumn.chars (time : TimeColumn) : List Char :=
  time.whole ++ '.' :: (time.fraction ++ [' ', '|'])

theorem TimeColumn.skipTime?_chars (time : TimeColumn) {rest : List Char}
    (printed : ∀ c ∈ rest.head?, isBlank c = false) :
    skipTime? (time.chars ++ rest) = some rest := by
  have cut : (time.chars ++ rest).span isDigit =
      (time.whole, '.' :: (time.fraction ++ ' ' :: '|' :: rest)) := by
    rw [chars, List.append_assoc, List.cons_append, List.append_assoc]
    exact span_append time.whole_digits (by simp; decide)
  have cut' : (time.fraction ++ ' ' :: '|' :: rest).span isDigit =
      (time.fraction, ' ' :: '|' :: rest) :=
    span_append time.fraction_digits (by simp; decide)
  have bar : (' ' :: '|' :: rest).dropWhile isBlank = '|' :: rest := rfl
  obtain ⟨first, more, shown⟩ := List.exists_cons_of_ne_nil time.whole_filled
  obtain ⟨first', more', shown'⟩ := List.exists_cons_of_ne_nil time.fraction_filled
  rw [skipTime?, cut, shown]
  simp only [cut']
  rw [shown']
  simp only [bar, dropWhile_of_head? printed]

def front (time : Option TimeColumn) (digits : List Char) : List Char :=
  time.elim [] TimeColumn.chars ++ (digits ++ [')'])

section

variable {digits : List Char} (filled : digits ≠ []) (all : ∀ c ∈ digits, isDigit c = true)
include filled all

theorem cpuColumn?_append (rest : List Char) :
    cpuColumn? (digits ++ ')' :: rest) = some (digits, rest) := by
  have cut : (digits ++ ')' :: rest).span isDigit = (digits, ')' :: rest) :=
    span_append all (by simp; decide)
  rw [cpuColumn?, cut]
  cases digits with
  | nil => exact absurd rfl filled
  | cons digit more => rfl

theorem skipTime?_append (rest : List Char) : skipTime? (digits ++ ')' :: rest) = none := by
  have cut : (digits ++ ')' :: rest).span isDigit = (digits, ')' :: rest) :=
    span_append all (by simp; decide)
  rw [skipTime?, cut]
  cases digits with
  | nil => exact absurd rfl filled
  | cons digit more => rfl

theorem cpuColumn?_front (time : Option TimeColumn) (rest : List Char) :
    cpuColumn? ((skipTime? (front time digits ++ rest)).getD (front time digits ++ rest)) =
      some (digits, rest) := by
  have behind : digits ++ [')'] ++ rest = digits ++ ')' :: rest := List.append_cons ..|>.symm
  cases time with
  | none =>
      simp only [front, Option.elim_none, List.nil_append, behind]
      rw [skipTime?_append filled all, Option.getD_none, cpuColumn?_append filled all]
  | some time =>
      have printed : ∀ c ∈ (digits ++ ')' :: rest).head?, isBlank c = false := by
        obtain ⟨digit, more, rfl⟩ := List.exists_cons_of_ne_nil filled
        intro c member
        obtain rfl : digit = c := Option.some.inj member
        exact isBlank_of_digit (all digit List.mem_cons_self)
      simp only [front, Option.elim_some, List.append_assoc, List.singleton_append]
      rw [time.skipTime?_chars printed, Option.getD_some, cpuColumn?_append filled all]

theorem head?_front (time : Option TimeColumn) (rest : List Char) :
    ∃ digit more, front time digits ++ rest = digit :: more ∧ isDigit digit = true := by
  cases time with
  | none =>
      obtain ⟨digit, more, rfl⟩ := List.exists_cons_of_ne_nil filled
      exact ⟨digit, _, rfl, all digit List.mem_cons_self⟩
  | some time =>
      obtain ⟨digit, more, shown⟩ := List.exists_cons_of_ne_nil time.whole_filled
      exact ⟨digit, _, by rw [front, Option.elim_some, TimeColumn.chars, shown]; rfl,
        time.whole_digits digit (by simp [shown])⟩

theorem isHeading_front (time : Option TimeColumn) (rest : List Char) :
    ((front time digits ++ rest).isEmpty || (front time digits ++ rest).head? == some '#') =
      false := by
  obtain ⟨digit, more, shown, isDigit_⟩ := head?_front filled all time rest
  have noHash : digit ≠ '#' := by
    rintro rfl
    exact absurd isDigit_ (by decide)
  simp [shown, noHash]

theorem dropWhile_chomp_front (time : Option TimeColumn) {rest ends : List Char}
    (last : ∃ c ∈ rest.getLast?, c ≠ '\r' ∧ c ≠ '\n')
    (isEnd : ∀ c ∈ ends, c = '\r' ∨ c = '\n') :
    (chomp (front time digits ++ rest ++ ends)).dropWhile isBlank = front time digits ++ rest := by
  obtain ⟨final, shown, noReturn, noFeed⟩ := last
  have whole : chomp (front time digits ++ rest ++ ends) = front time digits ++ rest := by
    rw [chomp, dropEndWhile_append_of_forall (by simpa using isEnd)]
    refine dropEndWhile_of_getLast? fun c member => ?_
    rw [List.getLast?_append, shown, Option.some_or] at member
    obtain rfl : final = c := Option.some.inj member
    simp [noReturn, noFeed]
  obtain ⟨digit, more, shown, isDigit_⟩ := head?_front filled all time rest
  rw [whole, shown, List.dropWhile_cons, isBlank_of_digit isDigit_, if_neg Bool.false_ne_true]

end

theorem ofLine_front (time : Option TimeColumn) {cpu : Nat}
    (short : (Nat.toDigits 10 cpu).length ≤ Number.digitLimit) {rest ends : List Char}
    (last : ∃ c ∈ rest.getLast?, c ≠ '\r' ∧ c ≠ '\n')
    (isEnd : ∀ c ∈ ends, c = '\r' ∨ c = '\n') {task duration body : List Char} {indent : Nat}
    (inner : innerColumns? rest = some (task, duration, indent, body)) :
    Columns.ofLine (front time (Nat.toDigits 10 cpu) ++ rest ++ ends) =
      .ok (some { cpu, task, duration, indent, body }) := by
  have filled : Nat.toDigits 10 cpu ≠ [] := Nat.toDigits_ne_nil
  have all : ∀ c ∈ Nat.toDigits 10 cpu, isDigit c = true :=
    fun c member => isDigit_of_isDigit (isDigit_of_mem_toDigits member)
  have number : cpuNumber (Nat.toDigits 10 cpu) = .ok cpu := by
    rw [cpuNumber, if_neg (Nat.not_lt.mpr short), digitsValue_toDigits]
  rw [Columns.ofLine, dropWhile_chomp_front filled all time last isEnd]
  simp only [isHeading_front filled all, Bool.false_eq_true, if_false,
    cpuColumn?_front filled all, inner, number]
  rfl

theorem IsBody.getLast? {body : List Char} (h : IsBody body) :
    ∃ c ∈ body.getLast?, c ≠ '\r' ∧ c ≠ '\n' := by
  have last := List.getLast?_eq_some_getLast h.ne_nil
  have printed := h.last _ last
  exact ⟨_, last, ne_of_isBlank printed (by decide), ne_of_isBlank printed (by decide)⟩

structure Lead where
  cpu : Nat
  task : List Char
  duration : List Char
  cpu_short : (Nat.toDigits 10 cpu).length ≤ Number.digitLimit
  task_bar : '|' ∉ task
  duration_bar : '|' ∉ duration

def Lead.layout (lead : Lead) (indent : Nat) (body : List Char) : List Char :=
  Nat.toDigits 10 lead.cpu ++ ')' :: (lead.task ++ '|' ::
    (lead.duration ++ '|' :: (List.replicate indent ' ' ++ body)))

def Lead.columns (lead : Lead) (indent : Nat) (body : List Char) : Columns where
  cpu := lead.cpu
  task := trim lead.task
  duration := lead.duration
  indent := indent
  body := body

theorem getLast?_append_body (text : List Char) {body : List Char} (h : IsBody body) :
    (text ++ body).getLast? = body.getLast? :=
  List.getLast?_append_of_ne_nil _ h.ne_nil

theorem ofLine_layout (lead : Lead) (indent : Nat) {body : List Char} (h : IsBody body) :
    Columns.ofLine (lead.layout indent body) = .ok (some (lead.columns indent body)) := by
  let rest := lead.task ++ '|' ::
    (lead.duration ++ '|' :: (List.replicate indent ' ' ++ body))
  have line : lead.layout indent body = front none (Nat.toDigits 10 lead.cpu) ++ rest ++ [] := by
    simp [Lead.layout, front, rest]
  have last : ∃ c ∈ rest.getLast?, c ≠ '\r' ∧ c ≠ '\n' := by
    have behind : rest = (lead.task ++ '|' ::
        (lead.duration ++ '|' :: List.replicate indent ' ')) ++ body := by simp [rest]
    rw [behind, getLast?_append_body _ h]
    exact h.getLast?
  rw [line, ofLine_front none lead.cpu_short last (by simp)
    (innerColumns?_of_task lead.task_bar lead.duration_bar h indent)]
  rfl

structure FunctionName where
  chars : List Char
  filled : chars ≠ []
  clean : ∀ c ∈ chars, isBlank c = false ∧ c ∉ ['(', ')', '\x7b', '\x7d', ';', '[']

namespace FunctionName

variable (name : FunctionName)

def toString : String :=
  String.ofList name.chars

def entryBody : List Char :=
  name.chars ++ ['(', ')', ' ', '\x7b']

def leafBody : List Char :=
  name.chars ++ ['(', ')', ';']

theorem isTokenChar_of_mem {c : Char} (h : c ∈ name.chars) : isTokenChar c = true := by
  obtain ⟨blank, marks⟩ := name.clean c h
  simp only [List.mem_cons, List.not_mem_nil, or_false, not_or] at marks
  simp [isTokenChar, blank, marks]

theorem isBody_append {rest : List Char} (last : ∀ c ∈ rest.getLast?, isBlank c = false)
    (filled : rest ≠ []) (oneLine : '\n' ∉ rest) : IsBody (name.chars ++ rest) where
  first := by
    obtain ⟨c, more, shown⟩ := List.exists_cons_of_ne_nil name.filled
    exact ⟨c, by simp [shown], (name.clean c (by simp [shown])).1⟩
  last c member := by
    rw [List.getLast?_append_of_ne_nil _ filled] at member
    exact last c member
  oneLine := by
    intro member
    rcases List.mem_append.mp member with member | member
    · exact absurd (name.clean _ member).1 (by decide)
    · exact oneLine member

theorem isBody_entryBody : IsBody name.entryBody :=
  name.isBody_append (by simp; decide) (by simp) (by decide)

theorem isBody_leafBody : IsBody name.leafBody :=
  name.isBody_append (by simp; decide) (by simp) (by decide)

theorem isToken : IsToken name.chars := by
  have whole : IsToken (name.chars ++ []) :=
    .intro name.filled (fun c => name.isTokenChar_of_mem) (.inl rfl)
  rwa [List.append_nil] at whole

theorem signed (rest : List Char) :
    Signed name.chars rest (name.chars ++ '(' :: ')' :: rest) :=
  @Signed.intro _ _ [] name.isToken (List.forall_mem_nil _)

theorem read?_entryBody : Body.read? name.entryBody = some (.enter name.chars) := by
  have gap : IsGap [' '] := List.forall_mem_singleton.mpr (by decide)
  exact (read?_eq_some_iff name.isBody_entryBody.oneLine).mpr
    (@Spelled.enter _ [' '] [] _ (name.signed _) gap (.inl rfl))

theorem read?_leafBody : Body.read? name.leafBody = some (.call name.chars) :=
  (read?_eq_some_iff name.isBody_leafBody.oneLine).mpr (.call (name.signed [';']))

theorem functionName_chars : functionName name.chars = .ok name.toString := by
  have whole : name.chars.takeWhile (· != '[') = name.chars := by
    refine List.takeWhile_eq_self_iff.mpr fun c member => ?_
    have marks := (name.clean c member).2
    simp only [List.mem_cons, List.not_mem_nil, or_false, not_or] at marks
    simp [marks]
  simp [functionName, words_of_forall name.filled fun c member => (name.clean c member).1, whole,
    toString]

end FunctionName

def exitBody : List Char := ['\x7d']

theorem isBody_exitBody : IsBody exitBody where
  first := ⟨_, rfl, by decide⟩
  last c member := by
    obtain rfl : '\x7d' = c := Option.some.inj member
    decide
  oneLine := by decide

theorem read?_exitBody : Body.read? exitBody = some .leave := by decide

end CallTimeline.Trace
