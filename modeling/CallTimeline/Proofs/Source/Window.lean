import CallTimeline.Proofs.Source.Exhaustive

/-!
# Windows of code

A file is stripped line by line from its first line, with the comment state carried (`codes`). The
definition test strips less: a part of its line, as if no comment were open, and the lines behind
it. Where that part is the end of a line and what stands before it is plain, both give the same code
(`windowCode_append`, `codeFrom_eq`).
-/

namespace CallTimeline.Source

open Text

def codes (inComment : Bool) : List (List Char) → List (List Char)
  | [] => []
  | line :: rest =>
    let (code, inComment) := strip inComment (chomp line)
    code :: codes inComment rest

/-- The code of the lines from an index on, the first one and `context` more, as the file has it. -/
def codeFrom (lines : List (List Char)) (index : Nat) (context : Int) : List Char :=
  ['\n'].intercalate (((codes false lines).drop index).take (context + 1).toNat)

theorem codes_drop (inComment : Bool) (lines : List (List Char)) (index : Nat) :
    (codes inComment lines).drop index =
      codes ((lines.take index).foldl (fun inComment line => (strip inComment (chomp line)).2)
        inComment) (lines.drop index) := by
  induction index generalizing inComment lines with
  | zero => rfl
  | succ index ih =>
      cases lines with
      | nil => rfl
      | cons line rest => exact ih (strip inComment (chomp line)).2 rest

theorem codes_take (inComment : Bool) (lines : List (List Char)) (count : Nat) :
    (codes inComment lines).take count = codes inComment (lines.take count) := by
  induction count generalizing inComment lines with
  | zero => rfl
  | succ count ih =>
      cases lines with
      | nil => rfl
      | cons line rest =>
          exact congrArg _ (ih (strip inComment (chomp line)).2 rest)

theorem length_codes (inComment : Bool) (lines : List (List Char)) :
    (codes inComment lines).length = lines.length := by
  induction lines generalizing inComment with
  | nil => rfl
  | cons line rest ih => rw [codes, List.length_cons, List.length_cons, ih]

theorem windowCode_eq (inComment : Bool) (lines : List (List Char)) :
    windowCode inComment lines = ['\n'].intercalate (codes inComment lines) := by
  induction lines generalizing inComment with
  | nil => rfl
  | cons line rest ih =>
      cases rest with
      | nil => simp [windowCode, codes]
      | cons next rest => simp [windowCode, ih, codes]

theorem codeFrom_eq (lines : List (List Char)) (index : Nat) (context : Int) :
    codeFrom lines index context =
      windowCode (commentBefore lines index) ((lines.drop index).take (context + 1).toNat) := by
  rw [codeFrom, codes_drop, codes_take, ← windowCode_eq]
  rfl

def isPlain (c : Char) : Bool :=
  c != '/' && c != '"' && c != '\''

theorem strip_cons {c : Char} (plain : isPlain c = true) (text : List Char) :
    strip false (c :: text) = (c :: (strip false text).1, (strip false text).2) := by
  simp only [isPlain, Bool.and_eq_true, bne_iff_ne] at plain
  obtain ⟨⟨slash, double⟩, single⟩ := plain
  rw [strip.eq_def]
  simp [slash, double, single]

theorem strip_append {before : List Char} (plain : ∀ c ∈ before, isPlain c = true)
    (text : List Char) :
    strip false (before ++ text) = (before ++ (strip false text).1, (strip false text).2) := by
  induction before with
  | nil => rfl
  | cons c before ih =>
      have rest := ih fun d member => plain d (List.mem_cons_of_mem c member)
      rw [List.cons_append, strip_cons (plain c List.mem_cons_self), rest, List.cons_append]

theorem windowCode_append {before line : List Char} (plain : ∀ c ∈ before, isPlain c = true)
    (ended : chomp line = line) {whole : List Char} (whole_eq : chomp whole = before ++ line)
    (rest : List (List Char)) :
    windowCode false (whole :: rest) = before ++ windowCode false (line :: rest) := by
  have start : strip false (chomp whole) =
      (before ++ (strip false line).1, (strip false line).2) := by
    rw [whole_eq, strip_append plain]
  cases rest with
  | nil => rw [windowCode, windowCode, start, ended]
  | cons next rest => simp [windowCode, start, ended]

end CallTimeline.Source
