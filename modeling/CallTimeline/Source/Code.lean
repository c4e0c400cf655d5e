/-!
# Code without comments and literals

`strip` takes the comments and the quoted literals out of one line of C. Block comments go over
line ends, so it is told whether one is open and tells whether one is open behind the line. A
literal that is not closed ends with the line.
-/

namespace CallTimeline.Source

/-- What stands behind a literal that is closed by `quote`. A backslash takes the next character
with it. -/
def afterLiteral (quote : Char) : List Char → List Char
  | [] => []
  | '\\' :: _ :: rest => afterLiteral quote rest
  | c :: rest => if c == quote then rest else afterLiteral quote rest

def afterComment? : List Char → Option (List Char)
  | [] => none
  | '*' :: '/' :: rest => some rest
  | _ :: rest => afterComment? rest

theorem length_afterLiteral_le (quote : Char) (text : List Char) :
    (afterLiteral quote text).length ≤ text.length := by
  fun_induction afterLiteral quote text with
  | case1 => exact Nat.le_refl _
  | case2 _ _ ih => simp only [List.length_cons]; omega
  | case3 => simp only [List.length_cons]; omega
  | case4 _ _ _ _ ih => simp only [List.length_cons]; omega

theorem length_afterComment?_lt {text rest : List Char} (h : afterComment? text = some rest) :
    rest.length < text.length := by
  fun_induction afterComment? text with
  | case1 => simp at h
  | case2 =>
    cases h
    simp only [List.length_cons]
    omega
  | case3 _ _ _ ih =>
    have := ih h
    simp only [List.length_cons]
    omega

/-- The code of a line, and whether a block comment is open behind it. -/
def strip (inComment : Bool) (line : List Char) : List Char × Bool :=
  if inComment then
    match _h : afterComment? line with
    | some rest => strip false rest
    | none => ([], true)
  else
    match line with
    | [] => ([], false)
    | '/' :: '/' :: _ => ([], false)
    | '/' :: '*' :: rest => strip true rest
    | c :: rest =>
      if c == '"' || c == '\'' then strip false (afterLiteral c rest)
      else
        let (code, inComment) := strip false rest
        (c :: code, inComment)
termination_by line.length
decreasing_by
  · exact length_afterComment?_lt _h
  · simp only [List.length_cons]; omega
  · have := length_afterLiteral_le c rest
    simp only [List.length_cons]
    omega
  · simp only [List.length_cons]; omega

end CallTimeline.Source
