/-!
# Storyline.Text.LineEnd

Line ends.  Text files may end their lines in three ways; read as text, each of
them is one newline character.
-/

namespace Storyline.Text

/-- Makes every line end a newline: a carriage return, alone or before a newline,
is one line end. -/
def unifyLineEnds : List Char → List Char
  | [] => []
  | '\r' :: '\n' :: rest => '\n' :: unifyLineEnds rest
  | '\r' :: rest => '\n' :: unifyLineEnds rest
  | c :: rest => c :: unifyLineEnds rest

/-- A text without carriage returns is left as it is. -/
theorem unifyLineEnds_of_not_mem {cs : List Char} (h : '\r' ∉ cs) : unifyLineEnds cs = cs := by
  fun_induction unifyLineEnds cs with
  | case1 => rfl
  | case2 rest => simp at h
  | case3 rest => simp at h
  | case4 c rest _ _ ih => simp only [List.mem_cons, not_or] at h; rw [ih h.2]

/-- Once line ends are newlines, there are no carriage returns. -/
theorem return_not_mem_unifyLineEnds (cs : List Char) : '\r' ∉ unifyLineEnds cs := by
  fun_induction unifyLineEnds cs with
  | case1 => simp
  | case2 rest ih => simp [ih]
  | case3 rest _ ih => simp [ih]
  | case4 c rest _ hreturn ih => simp [ih, Ne.symm hreturn]

/-- A text is left as it is just if it has no carriage returns. -/
theorem unifyLineEnds_eq_self_iff {cs : List Char} : unifyLineEnds cs = cs ↔ '\r' ∉ cs := by
  constructor
  · intro h
    rw [← h]
    exact return_not_mem_unifyLineEnds cs
  · exact unifyLineEnds_of_not_mem

end Storyline.Text
