import CallTimeline.Proofs.Trace.Layout

namespace CallTimeline.Trace

open Text

/-- A line of a trace by its columns, and the line ends behind it. -/
structure Row where
  time : Option TimeColumn
  cpu : Nat
  task : Option (List Char)
  duration : List Char
  indent : Nat
  body : List Char
  ends : List Char
  cpu_short : (Nat.toDigits 10 cpu).length ≤ Number.digitLimit
  task_bar : ∀ text ∈ task, '|' ∉ text
  duration_bar : '|' ∉ duration
  isBody : IsBody body
  -- Only the bars tell the layouts apart: what stands before a bar in such a body would be read as
  -- the duration, and the duration as a task.
  body_bar : task = none → '|' ∉ body
  isEnd : ∀ c ∈ ends, c = '\r' ∨ c = '\n'

def indented (indent : Nat) (body : List Char) : List Char :=
  List.replicate indent ' ' ++ body

namespace Row

variable (row : Row)

def inner : List Char :=
  row.task.elim [] (· ++ ['|']) ++ row.duration ++ '|' :: indented row.indent row.body

def line : List Char :=
  front row.time (Nat.toDigits 10 row.cpu) ++ row.inner ++ row.ends

def columns : Columns where
  cpu := row.cpu
  task := row.task.elim [] trim
  duration := row.duration
  indent := row.indent
  body := row.body

end Row

theorem not_mem_indented {body : List Char} (bar : '|' ∉ body) (indent : Nat) :
    '|' ∉ indented indent body := by
  rw [indented, List.mem_append, List.mem_replicate]
  rintro (⟨-, space⟩ | member)
  · exact absurd space (by decide)
  · exact bar member

theorem innerColumns?_of_bare {duration body : List Char} (bar : '|' ∉ duration)
    (h : IsBody body) (bar' : '|' ∉ body) (indent : Nat) :
    innerColumns? (duration ++ '|' :: indented indent body) =
      some ([], duration, indent, body) := by
  have one : cutAt? '|' (indented indent body) = none :=
    cutAt?_eq_none (not_mem_indented bar' indent)
  have split : indentedBody? (indented indent body) = some (indent, body) :=
    indentedBody?_replicate h indent
  simp [innerColumns?, cutAt?_append bar, one, split]

theorem Row.innerColumns?_inner (row : Row) :
    innerColumns? row.inner =
      some (row.columns.task, row.duration, row.indent, row.body) := by
  have duration := row.duration_bar
  cases shown : row.task with
  | none =>
      simp only [inner, columns, shown, Option.elim_none, List.nil_append]
      exact innerColumns?_of_bare duration row.isBody (row.body_bar shown) row.indent
  | some task =>
      simp only [inner, columns, shown, Option.elim_some, List.append_assoc, List.singleton_append]
      exact innerColumns?_of_task (row.task_bar task shown) duration row.isBody row.indent

theorem getLast?_indented (text : List Char) {body : List Char} (h : IsBody body) (indent : Nat) :
    ∃ c ∈ (text ++ indented indent body).getLast?, c ≠ '\r' ∧ c ≠ '\n' := by
  rw [indented, ← List.append_assoc, getLast?_append_body _ h]
  exact h.getLast?

/-- A row is split into the columns that it was written from. -/
theorem Row.ofLine_line (row : Row) : Columns.ofLine row.line = .ok (some row.columns) := by
  have last : ∃ c ∈ row.inner.getLast?, c ≠ '\r' ∧ c ≠ '\n' := by
    rw [inner, List.append_cons]
    exact getLast?_indented _ row.isBody row.indent
  exact ofLine_front row.time row.cpu_short last row.isEnd row.innerColumns?_inner

-- The bar in the body is no column, as the row has a task.
example : ∃ row : Row, row.line = "12.5 |0) a-1 | 1.5 us |  f|g;\r\n".toList ∧
    row.columns = { cpu := 0, task := "a-1".toList, duration := " 1.5 us ".toList, indent := 2,
                    body := "f|g;".toList } :=
  ⟨{ time := some ⟨"12".toList, "5".toList, by decide, by decide, by simp; decide, by simp; decide⟩
     cpu := 0
     task := some " a-1 ".toList
     duration := " 1.5 us ".toList
     indent := 2
     body := "f|g;".toList
     ends := "\r\n".toList
     cpu_short := by decide
     task_bar := by decide
     duration_bar := by decide
     isBody := ⟨⟨'f', rfl, by decide⟩, by simp; decide, by decide⟩
     body_bar := by decide
     isEnd := by simp }, rfl, rfl⟩

end CallTimeline.Trace
