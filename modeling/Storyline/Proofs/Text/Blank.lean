import Storyline.Text.Blank

/-!
# Storyline.Proofs.Text.Blank

Trimming.  A text is trimmed if it neither starts nor ends with a blank.  Trimming makes it so,
and takes nothing but blanks off its ends; what is trimmed stays as it is.
-/

namespace Storyline.Text

/-- Whether a text has no blank at either end. -/
structure IsTrimmed (cs : List Char) : Prop where
  first : ∀ c ∈ cs.head?, isBlank c = false
  last : ∀ c ∈ cs.getLast?, isBlank c = false

theorem dropWhile_blanks_append {gap rest : List Char} (blank : allBlank gap = true)
    (h : ∀ c ∈ rest.head?, isBlank c = false) : (gap ++ rest).dropWhile isBlank = rest := by
  rw [List.dropWhile_append_of_pos (List.all_eq_true.1 blank)]
  cases rest with
  | nil => rfl
  | cons c rest => rw [List.dropWhile_cons_of_neg (by simp [h c rfl])]

/-- What stands between blanks is what trimming leaves, if it is trimmed. -/
theorem trimChars_between {before body after : List Char} (hbefore : allBlank before = true)
    (hafter : allBlank after = true) (trimmed : IsTrimmed body) :
    trimChars (before ++ body ++ after) = body := by
  by_cases hbody : body = []
  · have hboth : allBlank (before ++ after) = true := by
      rw [allBlank, List.all_append, Bool.and_eq_true]
      exact ⟨hbefore, hafter⟩
    have hnil : (before ++ after ++ []).dropWhile isBlank = [] :=
      dropWhile_blanks_append hboth nofun
    rw [List.append_nil] at hnil
    rw [hbody, List.append_nil, trimChars, hnil]
    rfl
  · have hfirst : ∀ c ∈ (body ++ after).head?, isBlank c = false := by
      obtain ⟨c, rest, rfl⟩ := List.exists_cons_of_ne_nil hbody
      exact trimmed.first
    have hlast : ∀ c ∈ body.reverse.head?, isBlank c = false := by
      rw [List.head?_reverse]
      exact trimmed.last
    have hblank : allBlank after.reverse = true := by rw [allBlank, List.all_reverse]; exact hafter
    rw [trimChars, List.append_assoc, dropWhile_blanks_append hbefore hfirst, List.reverse_append,
      dropWhile_blanks_append hblank hlast, List.reverse_reverse]

/-- Trimming takes blanks off both ends, and all of them. -/
theorem exists_trimChars (cs : List Char) : IsTrimmed (trimChars cs) ∧
    ∃ before after, cs = before ++ trimChars cs ++ after ∧ allBlank before = true ∧
      allBlank after = true := by
  have hhead : ∀ text : List Char, ∀ c ∈ (text.dropWhile isBlank).head?, isBlank c = false := by
    intro text c hc
    have hnot := List.head?_dropWhile_not isBlank text
    rw [hc] at hnot
    exact hnot
  have hrest : cs.dropWhile isBlank =
      trimChars cs ++ ((cs.dropWhile isBlank).reverse.takeWhile isBlank).reverse := by
    rw [trimChars, ← List.reverse_append, List.takeWhile_append_dropWhile, List.reverse_reverse]
  constructor
  · constructor
    · intro c hc
      refine hhead cs c ?_
      rw [hrest, List.head?_append, hc]
      rfl
    · rw [trimChars, List.getLast?_reverse]
      exact hhead _
  · refine ⟨cs.takeWhile isBlank, ((cs.dropWhile isBlank).reverse.takeWhile isBlank).reverse, ?_,
      List.all_takeWhile, ?_⟩
    · rw [List.append_assoc, ← hrest, List.takeWhile_append_dropWhile]
    · rw [allBlank, List.all_reverse]
      exact List.all_takeWhile

theorem trimChars_eq_self_iff {cs : List Char} : trimChars cs = cs ↔ IsTrimmed cs := by
  constructor
  · intro h
    exact h ▸ (exists_trimChars cs).1
  · intro trimmed
    have h : trimChars ([] ++ cs ++ []) = cs := trimChars_between rfl rfl trimmed
    rwa [List.append_nil] at h

/-- What is trimmed stays as it is. -/
theorem trim_trim (text : String) : trim (trim text) = trim text := by
  rw [trim, trim, String.toList_ofList, trimChars_eq_self_iff.2 (exists_trimChars _).1]

end Storyline.Text
