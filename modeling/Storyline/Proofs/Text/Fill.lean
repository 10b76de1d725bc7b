import Storyline.Text.Fill

/-!
# Storyline.Proofs.Text.Fill

What filled lines hold.  The *words* of a text are its runs of characters that divide no words,
but for the runs that are blank.  However narrow the lines are, they come to an end, and their
words are those of the text, each of them whole and in its order.  A line holds more than its
width only if it is one word that does.
-/

namespace Storyline.Text

/-! ## Words -/

/-- The words of a text: what stands between its separators, if it is not blank. -/
def words (text : List Char) : List (List Char) :=
  (text.splitOnP isSeparator).filter fun run => !allBlank run

theorem words_nil : words [] = [] := rfl

/-- A separator divides words. -/
theorem words_append_separator {c : Char} (h : isSeparator c = true) (text rest : List Char) :
    words (text ++ c :: rest) = words text ++ words rest := by
  rw [words, List.splitOnP_append_cons text rest h, List.filter_append, words, words]

theorem words_cons_separator {c : Char} (h : isSeparator c = true) (rest : List Char) :
    words (c :: rest) = words rest :=
  words_append_separator h [] rest

theorem words_separators_append {gap : List Char} (h : ∀ c ∈ gap, isSeparator c = true)
    (rest : List Char) : words (gap ++ rest) = words rest := by
  induction gap with
  | nil => rfl
  | cons c gap ih =>
    obtain ⟨hc, hgap⟩ := List.forall_mem_cons.1 h
    rw [List.cons_append, words_cons_separator hc, ih hgap]

/-- A run without separators is one word, unless it is blank. -/
theorem words_run {run : List Char} (h : ∀ c ∈ run, isSeparator c = false) :
    words run = [run].filter fun run => !allBlank run := by
  rw [words, List.splitOnP_eq_singleton h]

/-! ## Spaced texts -/

theorem isSeparator_space : isSeparator ' ' = true := rfl

/-- Two texts start with the same run, and have the same words after it. -/
def SameRuns (text other : List Char) : Prop :=
  ∃ run more more', text.splitOnP isSeparator = run :: more ∧
    other.splitOnP isSeparator = run :: more' ∧
    (more.filter fun run => !allBlank run) = more'.filter fun run => !allBlank run

namespace SameRuns

variable {text other : List Char}

theorem words_eq (h : SameRuns text other) : words text = words other := by
  obtain ⟨run, more, more', htext, hother, hmore⟩ := h
  rw [words, words, htext, hother, List.filter_cons, List.filter_cons, hmore]

theorem nil : SameRuns [] [] := ⟨[], [], [], rfl, rfl, rfl⟩

theorem cons {c : Char} (hc : isSeparator c = false) (h : SameRuns text other) :
    SameRuns (c :: text) (c :: other) := by
  obtain ⟨run, more, more', htext, hother, hmore⟩ := h
  refine ⟨c :: run, more, more', ?_, ?_, hmore⟩
  · rw [List.splitOnP_cons_eq_if_modifyHead, hc, htext]
    rfl
  · rw [List.splitOnP_cons_eq_if_modifyHead, hc, hother]
    rfl

theorem separators {c d : Char} (hc : isSeparator c = true) (hd : isSeparator d = true)
    (h : words text = words other) : SameRuns (c :: text) (d :: other) := by
  refine ⟨[], text.splitOnP isSeparator, other.splitOnP isSeparator, ?_, ?_, h⟩
  · rw [List.splitOnP_cons_eq_if_modifyHead, if_pos hc]
  · rw [List.splitOnP_cons_eq_if_modifyHead, if_pos hd]

end SameRuns

theorem sameRuns_expandTabs (text : List Char) (column : Nat) :
    SameRuns (expandTabs column text) text := by
  induction text generalizing column with
  | nil => exact .nil
  | cons c rest ih =>
    rw [expandTabs]
    split
    · next tab =>
      -- A tab is at least one space, and the spaces after the first divide no other words.
      have hwidth : 8 - column % 8 = (7 - column % 8) + 1 := by omega
      have hspaces : ∀ d ∈ List.replicate (7 - column % 8) ' ', isSeparator d = true := by
        intro d hd
        rw [List.eq_of_mem_replicate hd]
        rfl
      rw [tab, hwidth, List.replicate_succ, List.cons_append]
      refine .separators isSeparator_space rfl ?_
      rw [words_separators_append hspaces, (ih _).words_eq]
    · split
      · next hend =>
        have hc : isSeparator c = true := by obtain rfl | rfl := hend <;> rfl
        exact .separators hc hc (ih 0).words_eq
      · cases hc : isSeparator c with
        | true => exact .separators hc hc (ih (column + 1)).words_eq
        | false => exact (ih (column + 1)).cons hc

theorem sameRuns_spaces (text : List Char) :
    SameRuns (text.map fun c => if isSeparator c then ' ' else c) text := by
  induction text with
  | nil => exact .nil
  | cons c rest ih =>
    rw [List.map_cons]
    cases hc : isSeparator c with
    | true => exact .separators isSeparator_space hc ih.words_eq
    | false => exact ih.cons hc

/-- Spreading tabs and making separators spaces leaves the words as they are. -/
theorem words_spaced (text : List Char) : words (spaced text) = words text := by
  rw [spaced, (sameRuns_spaces _).words_eq, (sameRuns_expandTabs text 0).words_eq]

/-- Once a text is spaced, spaces are its only separators. -/
theorem eq_space_of_mem_spaced {text : List Char} {c : Char} (h : c ∈ spaced text)
    (hc : isSeparator c = true) : c = ' ' := by
  obtain ⟨d, -, rfl⟩ := List.mem_map.1 h
  cases hd : isSeparator d with
  | true => rfl
  | false =>
    simp only [hd, Bool.false_eq_true, if_false] at hc

/-! ## Chunks -/

/-- A chunk of spaces. -/
structure IsGap (chunk : List Char) : Prop where
  ne_nil : chunk ≠ []
  spaces : ∀ c ∈ chunk, c = ' '

/-- A chunk without separators. -/
structure IsRun (chunk : List Char) : Prop where
  ne_nil : chunk ≠ []
  plain : ∀ c ∈ chunk, isSeparator c = false

/-- Chunks as texts are cut into them: gaps and runs, with a gap between any two runs. -/
inductive Cut : List (List Char) → Prop
  | nil : Cut []
  | gap {chunk : List Char} {rest : List (List Char)} (isGap : IsGap chunk) (cut : Cut rest) :
    Cut (chunk :: rest)
  | run {chunk : List Char} {rest : List (List Char)} (isRun : IsRun chunk) (cut : Cut rest)
    (next : ∀ gap ∈ rest.head?, IsGap gap) : Cut (chunk :: rest)

theorem IsGap.isSeparator {chunk : List Char} (h : IsGap chunk) :
    ∀ c ∈ chunk, isSeparator c = true := by
  intro c hc
  rw [h.spaces c hc]
  rfl

theorem IsGap.allBlank {chunk : List Char} (h : IsGap chunk) : allBlank chunk = true := by
  rw [Text.allBlank, List.all_eq_true]
  intro c hc
  rw [h.spaces c hc]
  rfl

namespace Cut

/-- Some chunks of a cut text, in a row, and those after them. -/
theorem of_append {before after : List (List Char)} (h : Cut (before ++ after)) :
    Cut before ∧ Cut after := by
  induction before with
  | nil => exact ⟨.nil, h⟩
  | cons chunk rest ih =>
    cases h with
    | gap isGap cut => exact ⟨.gap isGap (ih cut).1, (ih cut).2⟩
    | run isRun cut next =>
      have hnext : ∀ gap ∈ rest.head?, IsGap gap := by
        intro gap hgap
        have hhead : (rest ++ after).head? = some gap := by
          rw [List.head?_append, hgap]
          rfl
        exact next gap hhead
      exact ⟨.run isRun (ih cut).1 hnext, (ih cut).2⟩

/-- The words of a cut text are its chunks that are not blank. -/
theorem words_flatten {cs : List (List Char)} (h : Cut cs) :
    words cs.flatten = cs.filter fun chunk => !Text.allBlank chunk := by
  induction h with
  | nil => rfl
  | @gap chunk rest isGap cut ih =>
    rw [List.flatten_cons, words_separators_append isGap.isSeparator, ih,
      List.filter_cons_of_neg (by simp [isGap.allBlank])]
  | @run chunk rest isRun cut next ih =>
    have hrun : words (chunk ++ rest.flatten) = words chunk ++ words rest.flatten := by
      cases rest with
      | nil => rw [List.flatten_nil, List.append_nil, words_nil, List.append_nil]
      | cons gap others =>
        obtain ⟨hne, hspaces⟩ := next gap rfl
        obtain ⟨c, gap, rfl⟩ := List.exists_cons_of_ne_nil hne
        have hc : isSeparator c = true := by rw [hspaces c List.mem_cons_self]; rfl
        rw [List.flatten_cons, List.cons_append, words_append_separator hc,
          words_cons_separator hc]
    rw [List.flatten_cons, hrun, ih, words_run isRun.plain, List.filter_cons, List.filter_cons]
    split <;> rfl

/-- The only separators in a cut text are spaces. -/
theorem eq_space {cs : List (List Char)} (h : Cut cs) {c : Char} (hc : c ∈ cs.flatten)
    (separator : isSeparator c = true) : c = ' ' := by
  induction h with
  | nil => cases hc
  | @gap chunk rest isGap cut ih =>
    obtain hc | hc := List.mem_append.1 (List.flatten_cons ▸ hc)
    · exact isGap.spaces c hc
    · exact ih hc
  | @run chunk rest isRun cut next ih =>
    obtain hc | hc := List.mem_append.1 (List.flatten_cons ▸ hc)
    · rw [isRun.plain c hc] at separator
      cases separator
    · exact ih hc

end Cut

theorem Cut.first_ne_nil {chunk : List Char} {rest : List (List Char)} (h : Cut (chunk :: rest)) :
    chunk ≠ [] := by
  cases h with
  | gap isGap _ => exact isGap.ne_nil
  | run isRun _ _ => exact isRun.ne_nil

section Character

variable {c : Char} (hc : isSeparator c = true → c = ' ')

theorem isGap_character (space : c = ' ') : IsGap [c] :=
  ⟨List.cons_ne_nil c [], by simpa using space⟩

include hc

theorem isRun_character (other : c ≠ ' ') : IsRun [c] := by
  have plain : isSeparator c = false := eq_false_of_ne_true fun separator => other (hc separator)
  exact ⟨List.cons_ne_nil c [], by simpa using plain⟩

/-- A character goes to the first chunk if both are spaces, or neither is; else it is a chunk. -/
theorem Cut.character {d : Char} {chunk : List Char} {more : List (List Char)}
    (cut : Cut ((d :: chunk) :: more)) :
    Cut (if (c = ' ') = (d = ' ') then (c :: d :: chunk) :: more
      else [c] :: (d :: chunk) :: more) := by
  cases cut with
  | gap found cut =>
    have hd : d = ' ' := found.spaces d List.mem_cons_self
    by_cases space : c = ' '
    · have spaces : ∀ e ∈ c :: d :: chunk, e = ' ' := List.forall_mem_cons.2 ⟨space, found.spaces⟩
      rw [if_pos (by rw [space, hd])]
      exact .gap ⟨List.cons_ne_nil c _, spaces⟩ cut
    · rw [if_neg (by simp [space, hd])]
      exact .run (isRun_character hc space) (.gap found cut) (by simpa using found)
  | run found cut next =>
    have hd : d ≠ ' ' := by
      rintro rfl
      exact absurd (found.plain ' ' List.mem_cons_self) (by decide)
    by_cases space : c = ' '
    · rw [if_neg (by simp [space, hd])]
      exact .gap (isGap_character space) (.run found cut next)
    · have plain := (isRun_character hc space).plain c List.mem_cons_self
      rw [if_pos (by simp [space, hd])]
      exact .run ⟨List.cons_ne_nil c _, List.forall_mem_cons.2 ⟨plain, found.plain⟩⟩ cut next

end Character

/-- A text whose separators are spaces is cut into chunks. -/
theorem cut_chunks {text : List Char} (h : ∀ c ∈ text, isSeparator c = true → c = ' ') :
    Cut (chunks text) := by
  induction text with
  | nil => exact .nil
  | cons c rest ih =>
    obtain ⟨hc, hrest⟩ := List.forall_mem_cons.1 h
    have cut := ih hrest
    rw [chunks.eq_def]
    dsimp only
    split
    · next d chunk more hchunks =>
      rw [hchunks] at cut
      exact cut.character hc
    · next hother =>
      -- No chunk is empty, so where there is no first character there is no chunk.
      have hnil : chunks rest = [] := by
        cases hchunks : chunks rest with
        | nil => rfl
        | cons chunk more =>
          rw [hchunks] at cut
          obtain ⟨d, chunk, rfl⟩ := List.exists_cons_of_ne_nil cut.first_ne_nil
          exact absurd hchunks (hother d chunk more)
      rw [hnil]
      by_cases space : c = ' '
      · exact .gap (isGap_character space) .nil
      · exact .run (isRun_character hc space) .nil nofun

/-! ## Rounds -/

/-- What comes before the words of a line. -/
def margin (started : Bool) : List Char := if started then indent else []

/-- The chunks that the next line takes, and those after them. -/
def nextLine (width : Int) (started : Bool) (cs : List (List Char)) :
    List (List Char) × List (List Char) :=
  takeLine (width - (margin started).length) (if started then dropFirstBlank cs else cs)

theorem takeFitting_spec (room : Int) (cs : List (List Char)) :
    cs = (takeFitting room cs).1 ++ (takeFitting room cs).2 ∧
      ((takeFitting room cs).1 = [] ∨ ((takeFitting room cs).1.flatten.length : Int) ≤ room) := by
  induction cs generalizing room with
  | nil => exact ⟨rfl, .inl rfl⟩
  | cons chunk rest ih =>
    rw [takeFitting]
    split
    · next fits =>
      obtain ⟨happend, hroom⟩ := ih (room - chunk.length)
      refine ⟨congrArg (chunk :: ·) happend, .inr ?_⟩
      simp only [List.flatten_cons, List.length_append]
      obtain hnil | hroom := hroom
      · rw [hnil]
        simpa using fits
      · omega
    · exact ⟨rfl, .inl rfl⟩

/-- A line takes chunks from the front, at least one, and as many as fit unless not even one
does. -/
theorem takeLine_spec (room : Int) {cs : List (List Char)} (h : cs ≠ []) :
    cs = (takeLine room cs).1 ++ (takeLine room cs).2 ∧ (takeLine room cs).1 ≠ [] ∧
      (((takeLine room cs).1.flatten.length : Int) ≤ room ∨
        ∃ chunk, (takeLine room cs).1 = [chunk]) := by
  obtain ⟨happend, hroom⟩ := takeFitting_spec room cs
  rw [takeLine.eq_def]
  split
  · next chunk rest htaken =>
    rw [htaken] at happend
    exact ⟨happend, List.cons_ne_nil chunk [], .inr ⟨chunk, rfl⟩⟩
  · next hother =>
    cases hcs : takeFitting room cs with
    | mk taken left =>
      rw [hcs] at happend hroom hother
      have hne : taken ≠ [] := by
        rintro rfl
        cases left with
        | nil => exact h happend
        | cons chunk rest => exact hother chunk rest rfl
      exact ⟨happend, hne, .inl (hroom.resolve_left hne)⟩

theorem dropFirstBlank_spec (cs : List (List Char)) :
    ∃ before, cs = before ++ dropFirstBlank cs ∧ ∀ chunk ∈ before, allBlank chunk = true := by
  cases cs with
  | nil => exact ⟨[], rfl, List.forall_mem_nil _⟩
  | cons chunk rest =>
    rw [dropFirstBlank]
    split
    · next blank => exact ⟨[chunk], rfl, by simpa using blank⟩
    · exact ⟨[], rfl, List.forall_mem_nil _⟩

theorem dropLastBlank_spec (cs : List (List Char)) :
    ∃ after, cs = dropLastBlank cs ++ after ∧ ∀ chunk ∈ after, allBlank chunk = true := by
  rw [dropLastBlank]
  split
  · next chunk last =>
    obtain ⟨front, rfl⟩ := List.getLast?_eq_some_iff.1 last
    split
    · next blank =>
      rw [List.dropLast_concat]
      exact ⟨[chunk], rfl, by simpa using blank⟩
    · exact ⟨[], (List.append_nil _).symm, List.forall_mem_nil _⟩
  · exact ⟨[], (List.append_nil _).symm, List.forall_mem_nil _⟩

/-- What a round does with chunks: it passes over blank ones, puts some in a line, and leaves the
rest.  A line that is wider than the lines are to be is one chunk, and not a blank one. -/
structure Round (width : Int) (started : Bool) (cs line rest : List (List Char)) : Prop where
  parts : ∃ before after, cs = before ++ (line ++ (after ++ rest)) ∧
    ∀ chunk ∈ before ++ after, allBlank chunk = true
  shorter : cs ≠ [] → rest.length < cs.length
  room : line ≠ [] → ((margin started ++ line.flatten).length : Int) ≤ width ∨
    ∃ chunk, line = [chunk] ∧ allBlank chunk = false

theorem round_nextLine (width : Int) (started : Bool) (cs : List (List Char)) :
    Round width started cs (dropLastBlank (nextLine width started cs).1)
      (nextLine width started cs).2 := by
  obtain ⟨before, hcs, hbefore⟩ : ∃ before,
      cs = before ++ (if started then dropFirstBlank cs else cs) ∧
        ∀ chunk ∈ before, allBlank chunk = true := by
    cases started with
    | true => exact dropFirstBlank_spec cs
    | false => exact ⟨[], rfl, List.forall_mem_nil _⟩
  rw [nextLine]
  generalize (if started then dropFirstBlank cs else cs) = front at hcs
  by_cases hfront : front = []
  · have hnone : takeLine (width - (margin started).length) [] = ([], []) := rfl
    rw [hfront, List.append_nil] at hcs
    rw [hfront, hnone]
    exact ⟨⟨before, [], by rw [hcs]; simp [dropLastBlank], by simpa using hbefore⟩,
      fun hne => List.length_pos_iff.2 hne, fun hne => absurd rfl hne⟩
  · obtain ⟨htake, hne, hroom⟩ := takeLine_spec (width - (margin started).length) hfront
    generalize takeLine (width - (margin started).length) front = came at htake hne hroom
    obtain ⟨taken, rest⟩ := came
    dsimp only at htake hne hroom ⊢
    obtain ⟨after, hafter, hblank⟩ := dropLastBlank_spec taken
    refine ⟨⟨before, after, ?_, List.forall_mem_append.2 ⟨hbefore, hblank⟩⟩, fun _ => ?_,
      fun hline => ?_⟩
    · rw [hcs, htake, ← List.append_assoc _ after, ← hafter]
    · have htaken : 0 < taken.length := List.length_pos_iff.2 hne
      rw [hcs, htake, List.length_append, List.length_append]
      omega
    · obtain fits | ⟨chunk, rfl⟩ := hroom
      · have hlength := congrArg (fun cs => cs.flatten.length) hafter
        simp only [List.flatten_append, List.length_append] at hlength
        rw [List.length_append]
        exact .inl (by omega)
      · have hlast : dropLastBlank [chunk] = if allBlank chunk then [] else [chunk] := rfl
        rw [hlast] at hline ⊢
        cases blank : allBlank chunk with
        | true => exact absurd (if_pos blank) hline
        | false => exact .inr ⟨chunk, if_neg Bool.false_ne_true, blank⟩

/-- How lines are filled, round by round, until no chunk is left.  A round that comes to no line
leaves it open whether there is one yet. -/
inductive Fills (width : Int) : Bool → List (List Char) → List (List Char) → Prop
  | done (started : Bool) : Fills width started [] []
  | skip {started : Bool} {cs lines : List (List Char)} (left : cs ≠ [])
    (blank : dropLastBlank (nextLine width started cs).1 = [])
    (more : Fills width started (nextLine width started cs).2 lines) : Fills width started cs lines
  | line {started : Bool} {cs line lines : List (List Char)} (left : cs ≠ [])
    (taken : dropLastBlank (nextLine width started cs).1 = line) (full : line ≠ [])
    (more : Fills width true (nextLine width started cs).2 lines) :
    Fills width started cs ((margin started ++ line.flatten) :: lines)

/-- The rounds come to an end, for every width: as many steps as there are chunks are enough. -/
theorem fills_fillLines (width : Int) (started : Bool) {cs : List (List Char)} {steps : Nat}
    (enough : cs.length ≤ steps) : Fills width started cs (fillLines width steps started cs) := by
  induction steps generalizing started cs with
  | zero =>
    rw [List.length_eq_zero_iff.1 (Nat.le_zero.1 enough)]
    exact .done started
  | succ steps ih =>
    cases cs with
    | nil => exact .done started
    | cons chunk cs =>
      have hne := List.cons_ne_nil chunk cs
      have hrest : (nextLine width started (chunk :: cs)).2.length ≤ steps :=
        Nat.le_of_lt_succ (Nat.lt_of_lt_of_le ((round_nextLine width started _).shorter hne) enough)
      rw [fillLines]
      dsimp only
      split
      · next blank => exact .skip hne blank (ih started hrest)
      · next full => exact .line hne rfl full (ih true hrest)
      · exact hne

/-! ## What the lines hold -/

section Fills

variable {width : Int} {started : Bool} {cs line rest lines : List (List Char)}

theorem Round.cut (round : Round width started cs line rest) (cut : Cut cs) :
    Cut line ∧ Cut rest := by
  obtain ⟨before, after, rfl, -⟩ := round.parts
  obtain ⟨hline, hrest⟩ := cut.of_append.2.of_append
  exact ⟨hline, hrest.of_append.2⟩

/-- No word is lost in a round: those of a line come before those of the rest. -/
theorem Round.words (round : Round width started cs line rest) :
    (cs.filter fun chunk => !allBlank chunk) =
      (line.filter fun chunk => !allBlank chunk) ++ rest.filter fun chunk => !allBlank chunk := by
  obtain ⟨before, after, rfl, hblank⟩ := round.parts
  have hnone : ∀ dropped : List (List Char), (∀ chunk ∈ dropped, allBlank chunk = true) →
      (dropped.filter fun chunk => !allBlank chunk) = [] := by
    intro dropped h
    exact List.filter_eq_nil_iff.2 fun chunk hc => by simp [h chunk hc]
  obtain ⟨hbefore, hafter⟩ := List.forall_mem_append.1 hblank
  simp only [List.filter_append, hnone before hbefore, hnone after hafter, List.nil_append]

theorem isSeparator_of_mem_margin {c : Char} (h : c ∈ margin started) : c = ' ' := by
  cases started with
  | true => simpa [margin, indent] using h
  | false => cases h

/-- The words of a line are those of its chunks. -/
theorem words_line (started : Bool) (cut : Cut line) :
    Text.words (margin started ++ line.flatten) = line.filter fun chunk => !allBlank chunk := by
  have hmargin : ∀ c ∈ margin started, isSeparator c = true := by
    intro c hc
    rw [isSeparator_of_mem_margin hc]
    rfl
  rw [words_separators_append hmargin, cut.words_flatten]

/-- The words of the lines are those of the chunks. -/
theorem Fills.words (fills : Fills width started cs lines) (cut : Cut cs) :
    lines.flatMap Text.words = cs.filter fun chunk => !allBlank chunk := by
  induction fills with
  | done started => rfl
  | @skip started cs lines left blank more ih =>
    have round := round_nextLine width started cs
    rw [blank] at round
    rw [ih (round.cut cut).2, round.words]
    rfl
  | @line started cs line lines left taken full more ih =>
    have round := round_nextLine width started cs
    rw [taken] at round
    rw [List.flatMap_cons, words_line started (round.cut cut).1, ih (round.cut cut).2, round.words]

/-- The only separators in the lines are spaces. -/
theorem Fills.eq_space (fills : Fills width started cs lines) (cut : Cut cs) :
    ∀ text ∈ lines, ∀ c ∈ text, isSeparator c = true → c = ' ' := by
  induction fills with
  | done started => exact List.forall_mem_nil _
  | @skip started cs lines left blank more ih =>
    exact ih ((round_nextLine width started cs).cut cut).2
  | @line started cs line lines left taken full more ih =>
    obtain ⟨hline, hrest⟩ := (round_nextLine width started cs).cut cut
    rw [taken] at hline
    refine List.forall_mem_cons.2 ⟨fun c hc separator => ?_, ih hrest⟩
    obtain hc | hc := List.mem_append.1 hc
    · exact isSeparator_of_mem_margin hc
    · exact hline.eq_space hc separator

/-- A line is as wide as the lines are to be, or it is one word beside its margin. -/
theorem Fills.room (fills : Fills width started cs lines) (cut : Cut cs) :
    ∀ text ∈ lines, width < text.length →
      ∃ word, Text.words text = [word] ∧ (text = word ∨ text = indent ++ word) := by
  induction fills with
  | done started => exact List.forall_mem_nil _
  | @skip started cs lines left blank more ih =>
    exact ih ((round_nextLine width started cs).cut cut).2
  | @line started cs line lines left taken full more ih =>
    have round := round_nextLine width started cs
    obtain ⟨hline, hrest⟩ := round.cut cut
    rw [taken] at round hline
    refine List.forall_mem_cons.2 ⟨fun wide => ?_, ih hrest⟩
    obtain fits | ⟨word, rfl, other⟩ := round.room full
    · exact absurd wide (Int.not_lt.2 fits)
    · refine ⟨word, ?_, ?_⟩
      · rw [words_line started hline, List.filter_cons_of_pos (by simp [other]), List.filter_nil]
      · rw [List.flatten_singleton]
        cases started with
        | true => exact .inr rfl
        | false => exact .inl rfl

theorem Fills.indented (fills : Fills width started cs lines) :
    ∀ text ∈ if started then lines else lines.tail, indent <+: text := by
  induction fills with
  | done started => cases started <;> exact List.forall_mem_nil _
  | skip left blank more ih => exact ih
  | @line started cs line lines left taken full more ih =>
    cases started with
    | true => exact List.forall_mem_cons.2 ⟨List.prefix_append indent _, ih⟩
    | false => exact ih

end Fills

/-! ## Wrapping -/

section Wrap

variable {width : Int} (positive : 0 < width) (text : String)

include positive

/-- The lines of a text are those that its chunks fill, or one empty line if they fill none. -/
theorem exists_fills_wrap : ∃ filled, Fills width false (chunks (spaced text.toList)) filled ∧
    (wrap width text).map String.toList = if filled = [] then [[]] else filled := by
  refine ⟨_, fills_fillLines width false (Nat.le_refl _), ?_⟩
  by_cases hempty : text = ""
  · rw [wrap, if_pos (.inl hempty), hempty]
    rfl
  · rw [wrap, if_neg (not_or.2 ⟨hempty, Int.not_le.2 positive⟩)]
    dsimp only
    split
    · next hnone =>
      rw [hnone]
      rfl
    · next hsome =>
      rw [if_neg hsome, List.map_map]
      exact List.map_id'' (fun line => String.toList_ofList) _

/-- Wrapping a text in a width loses nothing:

* The lines are filled round by round from the chunks of the text, and that comes to an end.
* No line holds a newline, and the words of the lines, one line after the other, are those of the
  text.
* Each line but the first is indented.
* A line that is wider than the width is a single word, but for its indent. -/
theorem wrap_loses_nothing :
    (∃ filled, Fills width false (chunks (spaced text.toList)) filled ∧
      (wrap width text).map String.toList = if filled = [] then [[]] else filled) ∧
    (∀ line ∈ wrap width text, '\n' ∉ line.toList) ∧
    (wrap width text).flatMap (fun line => words line.toList) = words text.toList ∧
    (∀ line ∈ (wrap width text).tail, indent <+: line.toList) ∧
    ∀ line ∈ wrap width text, width < line.length →
      ∃ word, words line.toList = [word] ∧
        (line.toList = word ∨ line.toList = indent ++ word) := by
  obtain ⟨filled, fills, hwrap⟩ := exists_fills_wrap positive text
  have cut : Cut (chunks (spaced text.toList)) := cut_chunks fun c => eq_space_of_mem_spaced
  have hwords : filled.flatMap words = words text.toList := by
    rw [fills.words cut, ← cut.words_flatten, flatten_chunks, words_spaced]
  have hmem : ∀ line ∈ wrap width text, line.toList = [] ∨ line.toList ∈ filled := by
    intro line hline
    have h := List.mem_map_of_mem (f := String.toList) hline
    rw [hwrap] at h
    split at h
    · exact .inl (List.mem_singleton.1 h)
    · exact .inr h
  refine ⟨⟨filled, fills, hwrap⟩, fun line hline newline => ?_, ?_, fun line hline => ?_,
    fun line hline wide => ?_⟩
  · obtain hnil | hfilled := hmem line hline
    · rw [hnil] at newline
      cases newline
    · exact absurd (fills.eq_space cut _ hfilled _ newline rfl) (by decide)
  · rw [← hwords, ← List.flatMap_map, hwrap]
    split
    · next hnone => rw [hnone]; rfl
    · rfl
  · have h := List.mem_map_of_mem (f := String.toList) hline
    rw [List.map_tail, hwrap] at h
    split at h
    · cases h
    · exact fills.indented _ h
  · rw [← String.length_toList] at wide
    obtain hnil | hfilled := hmem line hline
    · rw [hnil] at wide
      exact absurd wide (Int.not_lt.2 (Int.le_of_lt positive))
    · exact fills.room cut _ hfilled wide

end Wrap

/-- Seven columns for a tab, a word that is longer than they are, one that is blank though it is
no space, and a vertical tab. -/
theorem lighthouse_is_wrapped :
    let text := "to\tthe lighthouse, \u00a0 at \x0blast"
    let lines := wrap 7 text
    0 < (7 : Int) ∧ lines = ["to", "  the", "  lighthouse,", "  \u00a0 at", "  last"] ∧
      (∃ filled, Fills 7 false (chunks (spaced text.toList)) filled ∧
        lines.map String.toList = filled) ∧
      (∀ line ∈ lines, '\n' ∉ line.toList) ∧
      lines.flatMap (fun line => words line.toList) =
        ["to", "the", "lighthouse,", "at", "last"].map String.toList ∧
      (∀ line ∈ lines.tail, indent <+: line.toList) ∧
      ∀ line ∈ lines, (7 : Int) < line.length → ∃ word, words line.toList = [word] ∧
        (line.toList = word ∨ line.toList = indent ++ word) := by
  intro text lines
  have hlines : lines = ["to", "  the", "  lighthouse,", "  \u00a0 at", "  last"] := by
    decide +kernel
  have hwords : words text.toList =
      ["to", "the", "lighthouse,", "at", "last"].map String.toList := by
    decide +kernel
  obtain ⟨⟨filled, fills, hwrap⟩, plain, same, indented, room⟩ :=
    wrap_loses_nothing (show 0 < (7 : Int) by decide) text
  have hfilled : lines.map String.toList = filled := by
    split at hwrap
    · have hone := congrArg List.length hwrap
      rw [List.length_map] at hone
      exact absurd (hone.symm.trans (congrArg List.length hlines)) (by decide)
    · exact hwrap
  exact ⟨by decide, hlines, ⟨filled, fills, hfilled⟩, plain, same.trans hwords, indented, room⟩

end Storyline.Text
