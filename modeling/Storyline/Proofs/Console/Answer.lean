import Mathlib.Data.List.Forall2
import Mathlib.Data.Nat.Digits.Defs
import Storyline.Console.Basic
import Storyline.Proofs.Act
import Storyline.Proofs.Json.Writable
import Storyline.Proofs.Text.Blank

/-!
# Storyline.Proofs.Console.Answer

Which line answers a question.  A line is read as a whole number if it spells one, with blanks
around it; among options it picks the one of that number, if there is one and the player may
pick it.  The first line that does is the answer: the lines before it are turned down, each with
one remark, and those after it are left.
-/

namespace Storyline.Console

/-! ## Numbers -/

/-- Digits of any script, with single underscores between them, and their values. -/
inductive Figures : List Char → List Nat → Prop
  | last {c : Char} {d : Nat} (digit : Text.digitValue? c = some d) : Figures [c] [d]
  | digit {c : Char} {d : Nat} {cs : List Char} {figures : List Nat}
    (digit : Text.digitValue? c = some d) (more : Figures cs figures) :
    Figures (c :: cs) (d :: figures)
  | underscore {c : Char} {d : Nat} {cs : List Char} {figures : List Nat}
    (digit : Text.digitValue? c = some d) (more : Figures cs figures) :
    Figures (c :: '_' :: cs) (d :: figures)

/-- A line that is a text, but for blanks around it. -/
def Around (line : String) (body : List Char) : Prop :=
  ∃ before after, line.toList = before ++ body ++ after ∧ Text.allBlank before = true ∧
    Text.allBlank after = true

/-- The whole number that a line spells: at most so many figures as may be read, with or without
a sign. -/
inductive Reads (line : String) : Int → Prop
  | bare {digits : List Char} {figures : List Nat} (body : Around line digits)
    (spelt : Figures digits figures) (short : figures.length ≤ Numeral.digitLimit) :
    Reads line (Nat.ofDigits 10 figures.reverse : Nat)
  | plus {digits : List Char} {figures : List Nat} (body : Around line ('+' :: digits))
    (spelt : Figures digits figures) (short : figures.length ≤ Numeral.digitLimit) :
    Reads line (Nat.ofDigits 10 figures.reverse : Nat)
  | minus {digits : List Char} {figures : List Nat} (body : Around line ('-' :: digits))
    (spelt : Figures digits figures) (short : figures.length ≤ Numeral.digitLimit) :
    Reads line (-(Nat.ofDigits 10 figures.reverse : Nat))

/-- Figures start with a digit. -/
theorem Figures.exists_head {cs : List Char} {figures : List Nat} (h : Figures cs figures) :
    ∃ c rest, cs = c :: rest ∧ (Text.digitValue? c).isSome = true := by
  cases h with
  | last digit => exact ⟨_, _, rfl, by rw [digit]; rfl⟩
  | digit digit more => exact ⟨_, _, rfl, by rw [digit]; rfl⟩
  | underscore digit more => exact ⟨_, _, rfl, by rw [digit]; rfl⟩

/-- They end with one, too. -/
theorem Figures.exists_last {cs : List Char} {figures : List Nat} (h : Figures cs figures) :
    ∃ c front, cs = front ++ [c] ∧ (Text.digitValue? c).isSome = true := by
  induction h with
  | @last c d digit => exact ⟨c, [], rfl, by rw [digit]; rfl⟩
  | @digit c d cs figures digit more ih =>
    obtain ⟨e, front, rfl, he⟩ := ih
    exact ⟨e, c :: front, rfl, he⟩
  | @underscore c d cs figures digit more ih =>
    obtain ⟨e, front, rfl, he⟩ := ih
    exact ⟨e, c :: '_' :: front, rfl, he⟩

theorem ne_of_isDigit {c d : Char} (h : (Text.digitValue? c).isSome = true)
    (hd : Text.digitValue? d = none) : c ≠ d := by
  rintro rfl
  rw [hd] at h
  cases h

theorem readFigures_iff {cs : List Char} {figures : List Nat} :
    readFigures cs = some figures ↔ Figures cs figures := by
  constructor
  · intro h
    fun_induction readFigures cs generalizing figures with
    | case1 => cases h
    | case2 c rest hc => cases h
    | case3 c d hc =>
      cases h
      exact .last hc
    | case4 c d hc rest ih =>
      obtain ⟨more, hmore, rfl⟩ := Option.map_eq_some_iff.1 h
      exact .underscore hc (ih hmore)
    | case5 c d hc rest _ _ ih =>
      obtain ⟨more, hmore, rfl⟩ := Option.map_eq_some_iff.1 h
      exact .digit hc (ih hmore)
  · intro h
    induction h with
    | last digit => simp only [readFigures, digit]
    | @digit c d cs figures digit more ih =>
      obtain ⟨e, rest, rfl, he⟩ := more.exists_head
      have hunderscore : e ≠ '_' := ne_of_isDigit he (by decide)
      rw [readFigures.eq_def]
      simp only [digit]
      split
      · next hnil => cases hnil
      · next heq =>
        cases heq
        exact absurd rfl hunderscore
      · rw [ih]
        rfl
    | underscore digit more ih =>
      simp only [readFigures, digit, ih]
      rfl

/-- Figures denote a number by tens, the last one being the ones. -/
theorem ofFigures_eq (figures : List Nat) :
    ofFigures figures = Nat.ofDigits 10 figures.reverse := by
  rw [Nat.ofDigits_eq_foldr, List.foldr_reverse, ofFigures]
  congr 1
  funext n d
  exact Nat.add_comm _ _

/-- No digit is blank. -/
theorem isBlank_of_isDigit {c : Char} (h : (Text.digitValue? c).isSome = true) :
    Text.isBlank c = false := by
  rw [Text.digitValue?, Option.isSome_map, List.find?_isSome] at h
  obtain ⟨start, hstart, hc⟩ := h
  simp only [Bool.and_eq_true, decide_eq_true_eq] at hc
  have hapart : ∀ start ∈ Text.zeros, start = 48 ∨ 1632 ≤ start ∧ start + 10 < 5760 ∨
      5760 < start ∧ start + 10 < 8192 ∨ 12288 < start := by decide
  have := hapart start hstart
  simp only [Text.isBlank, Bool.or_eq_false_iff, Bool.and_eq_false_iff, decide_eq_false_iff_not,
    beq_eq_false_iff_ne]
  omega

theorem isTrimmed_figures {digits : List Char} {figures : List Nat} (h : Figures digits figures) :
    Text.IsTrimmed digits := by
  constructor
  · obtain ⟨c, rest, rfl, hc⟩ := h.exists_head
    simpa using isBlank_of_isDigit hc
  · obtain ⟨c, front, rfl, hc⟩ := h.exists_last
    simpa using isBlank_of_isDigit hc

theorem isTrimmed_sign {c : Char} {digits : List Char} {figures : List Nat}
    (hc : Text.isBlank c = false) (h : Figures digits figures) : Text.IsTrimmed (c :: digits) := by
  constructor
  · simpa using hc
  · obtain ⟨d, front, rfl, hd⟩ := h.exists_last
    rw [← List.cons_append, List.getLast?_concat]
    simpa using isBlank_of_isDigit hd

theorem Around.trimChars_eq {line : String} {body : List Char} (h : Around line body)
    (trimmed : Text.IsTrimmed body) : Text.trimChars line.toList = body := by
  obtain ⟨before, after, hline, hbefore, hafter⟩ := h
  rw [hline, Text.trimChars_between hbefore hafter trimmed]

theorem around_trimChars (line : String) : Around line (Text.trimChars line.toList) :=
  (Text.exists_trimChars line.toList).2

theorem splitSign_figures {digits : List Char} {figures : List Nat} (h : Figures digits figures) :
    Numeral.splitSign digits = (false, digits) := by
  obtain ⟨c, rest, rfl, hc⟩ := h.exists_head
  have hminus : c ≠ '-' := ne_of_isDigit hc (by decide)
  have hplus : c ≠ '+' := ne_of_isDigit hc (by decide)
  rw [Numeral.splitSign.eq_def]
  split
  · next heq => exact absurd (List.cons.inj heq).1 hminus
  · next heq => exact absurd (List.cons.inj heq).1 hplus
  · rfl

theorem splitSign_cases (text : List Char) :
    (∃ rest, text = '-' :: rest ∧ Numeral.splitSign text = (true, rest)) ∨
      (∃ rest, text = '+' :: rest ∧ Numeral.splitSign text = (false, rest)) ∨
        Numeral.splitSign text = (false, text) := by
  rw [Numeral.splitSign.eq_def]
  split
  · next rest => exact .inl ⟨rest, rfl, rfl⟩
  · next rest => exact .inr (.inl ⟨rest, rfl, rfl⟩)
  · exact .inr (.inr rfl)

/-- A number is read from its sign and its figures. -/
theorem readNumber?_of_split {line : String} {negative : Bool} {digits : List Char} {n : Int}
    (h : Numeral.splitSign (Text.trimChars line.toList) = (negative, digits)) :
    readNumber? line = some n ↔ ∃ figures, Figures digits figures ∧
      figures.length ≤ Numeral.digitLimit ∧
      n = Numeral.withSign negative (Nat.ofDigits 10 figures.reverse) := by
  rw [readNumber?, h]
  dsimp only
  cases hread : readFigures digits with
  | none =>
    refine iff_of_false nofun ?_
    rintro ⟨figures, spelt, -⟩
    rw [readFigures_iff.2 spelt] at hread
    cases hread
  | some figures =>
    have unique : ∀ other, Figures digits other → other = figures := by
      intro other spelt
      rw [readFigures_iff.2 spelt] at hread
      exact Option.some.inj hread
    have spelt := readFigures_iff.1 hread
    dsimp only
    split
    · next short =>
      rw [ofFigures_eq, Option.some.injEq]
      constructor
      · rintro rfl
        exact ⟨figures, spelt, short, rfl⟩
      · rintro ⟨other, hother, -, rfl⟩
        rw [unique other hother]
    · next long =>
      refine iff_of_false nofun ?_
      rintro ⟨other, hother, short, -⟩
      exact long (unique other hother ▸ short)

/-- The number in a line is the one that it spells. -/
theorem readNumber?_iff {line : String} {n : Int} : readNumber? line = some n ↔ Reads line n := by
  constructor
  · intro h
    have body := around_trimChars line
    obtain ⟨digits, htext, hsplit⟩ | ⟨digits, htext, hsplit⟩ | hsplit :=
      splitSign_cases (Text.trimChars line.toList)
    · obtain ⟨figures, spelt, short, rfl⟩ := (readNumber?_of_split hsplit).1 h
      rw [htext] at body
      exact .minus body spelt short
    · obtain ⟨figures, spelt, short, rfl⟩ := (readNumber?_of_split hsplit).1 h
      rw [htext] at body
      exact .plus body spelt short
    · obtain ⟨figures, spelt, short, rfl⟩ := (readNumber?_of_split hsplit).1 h
      exact .bare body spelt short
  · intro h
    cases h with
    | @bare digits figures body spelt short =>
      have hsplit : Numeral.splitSign (Text.trimChars line.toList) = (false, digits) := by
        rw [body.trimChars_eq (isTrimmed_figures spelt), splitSign_figures spelt]
      exact (readNumber?_of_split hsplit).2 ⟨figures, spelt, short, rfl⟩
    | @plus digits figures body spelt short =>
      have hsplit : Numeral.splitSign (Text.trimChars line.toList) = (false, digits) := by
        rw [body.trimChars_eq (isTrimmed_sign (by decide) spelt)]
        rfl
      exact (readNumber?_of_split hsplit).2 ⟨figures, spelt, short, rfl⟩
    | @minus digits figures body spelt short =>
      have hsplit : Numeral.splitSign (Text.trimChars line.toList) = (true, digits) := by
        rw [body.trimChars_eq (isTrimmed_sign (by decide) spelt)]
        rfl
      exact (readNumber?_of_split hsplit).2 ⟨figures, spelt, short, rfl⟩

/-- A line spells at most one number. -/
theorem Reads.unique {line : String} {m n : Int} (hm : Reads line m) (hn : Reads line n) : m = n :=
  Option.some.inj ((readNumber?_iff.2 hm).symm.trans (readNumber?_iff.2 hn))

theorem readNumber?_eq_none_iff {line : String} :
    readNumber? line = none ↔ ∀ n, ¬Reads line n := by
  rw [Option.eq_none_iff_forall_ne_some]
  exact forall_congr' fun n => not_congr readNumber?_iff

/-! ## Items -/

/-- A line names the place of an item, counted from zero, by its number, counted from one. -/
def Names (line : String) (place : Nat) : Prop := Reads line (place + 1)

theorem Names.unique {line : String} {i j : Nat} (hi : Names line i) (hj : Names line j) :
    i = j := by
  have h := Reads.unique hi hj
  omega

/-- Why a line names none of so many items: the remark on it. -/
inductive Misses (count : Nat) (line : String) : String → Prop
  | noNumber (none : ∀ n, ¬Reads line n) : Misses count line "Please enter a number."
  | outOfRange {n : Int} (reads : Reads line n) (out : n < 1 ∨ count < n) :
    Misses count line (outOfRange count)

theorem judgePlace_cases (count : Nat) (line : String) :
    (∃ place, place < count ∧ Names line place ∧ judgePlace count line = .ok place) ∨
      ∃ remark, Misses count line remark ∧ judgePlace count line = .error remark := by
  rw [judgePlace]
  cases hread : readNumber? line with
  | none => exact .inr ⟨_, .noNumber (readNumber?_eq_none_iff.1 hread), rfl⟩
  | some n =>
    have reads := readNumber?_iff.1 hread
    dsimp only
    split
    · next hin =>
      have hplace : ((n - 1).toNat : Int) + 1 = n := by omega
      exact .inl ⟨(n - 1).toNat, by omega, by rwa [Names, hplace], rfl⟩
    · next hout => exact .inr ⟨_, .outOfRange reads (by omega), rfl⟩

/-- No line both names an item and misses them. -/
theorem Misses.not_names {count place : Nat} {line remark : String}
    (misses : Misses count line remark) (hplace : place < count) : ¬Names line place := by
  intro names
  cases misses with
  | noNumber none => exact none _ names
  | outOfRange reads out =>
    have h := reads.unique names
    omega

/-- An item is the answer just if the line names its place; else the line is turned down. -/
theorem judgeItem_cases {α : Type} (items : List α) (line : String) :
    (∃ place item, Names line place ∧ items[place]? = some item ∧
        judgeItem items line = .ok item) ∨
      ∃ remark, Misses items.length line remark ∧ judgeItem items line = .error remark := by
  rw [judgeItem]
  obtain ⟨place, hplace, names, hjudge⟩ | ⟨remark, misses, hjudge⟩ :=
    judgePlace_cases items.length line
  · have hitem := List.getElem?_eq_getElem hplace
    exact .inl ⟨place, items[place], names, hitem, by simp only [hjudge, hitem]⟩
  · exact .inr ⟨remark, misses, by rw [hjudge]⟩

theorem judgeItem_ok_iff {α : Type} {items : List α} {line : String} {item : α} :
    judgeItem items line = .ok item ↔ ∃ place, Names line place ∧ items[place]? = some item := by
  obtain ⟨place, found, names, hfound, hjudge⟩ | ⟨remark, misses, hjudge⟩ :=
    judgeItem_cases items line
  · rw [hjudge, Except.ok.injEq]
    constructor
    · rintro rfl
      exact ⟨place, names, hfound⟩
    · rintro ⟨other, names', hitem⟩
      rw [names'.unique names, hfound] at hitem
      exact Option.some.inj hitem
  · rw [hjudge]
    refine iff_of_false nofun ?_
    rintro ⟨place, names, hitem⟩
    exact misses.not_names (List.getElem?_eq_some_iff.1 hitem).1 names

/-! ## Options -/

/-- A line picks an option on offer that it names, if the player may pick it. -/
def Picks (views : List ChoiceView) (line : String) (v : ChoiceView) : Prop :=
  ∃ place, Names line place ∧ views[place]? = some v ∧ v.selectable = true

/-- Why a line picks no option: the remark on it. -/
inductive TurnedDown (views : List ChoiceView) (line : String) : String → Prop
  | missed {remark : String} (misses : Misses views.length line remark) :
    TurnedDown views line remark
  | locked {place : Nat} {v : ChoiceView} (names : Names line place)
    (found : views[place]? = some v) (locked : v.selectable = false) :
    TurnedDown views line "That option is locked."

/-- A line picks an option, or it is turned down. -/
theorem judgeOption_cases (views : List ChoiceView) (line : String) :
    (∃ v, Picks views line v ∧ judgeOption views line = .ok v.option) ∨
      ∃ remark, TurnedDown views line remark ∧ judgeOption views line = .error remark := by
  rw [judgeOption]
  obtain ⟨place, v, names, found, hjudge⟩ | ⟨remark, misses, hjudge⟩ := judgeItem_cases views line
  · rw [hjudge]
    dsimp only
    cases selectable : v.selectable with
    | true => exact .inl ⟨v, ⟨place, names, found, selectable⟩, rfl⟩
    | false => exact .inr ⟨_, .locked names found selectable, rfl⟩
  · exact .inr ⟨remark, .missed misses, by rw [hjudge]⟩

section Picks

variable {views : List ChoiceView} {line : String} {v w : ChoiceView}

theorem Picks.unique (hv : Picks views line v) (hw : Picks views line w) : v = w := by
  obtain ⟨place, names, found, -⟩ := hv
  obtain ⟨other, names', found', -⟩ := hw
  rw [names.unique names', found'] at found
  exact (Option.some.inj found).symm

theorem TurnedDown.not_picks {remark : String} (turned : TurnedDown views line remark) :
    ¬Picks views line v := by
  rintro ⟨place, names, found, selectable⟩
  cases turned with
  | missed misses => exact misses.not_names (List.getElem?_eq_some_iff.1 found).1 names
  | locked names' found' locked =>
    rw [names.unique names', found'] at found
    cases found
    rw [locked] at selectable
    cases selectable

theorem judgeOption_of_picks (picks : Picks views line v) :
    judgeOption views line = .ok v.option := by
  obtain ⟨w, picks', hjudge⟩ | ⟨remark, turned, -⟩ := judgeOption_cases views line
  · rw [hjudge, picks.unique picks']
  · exact absurd picks turned.not_picks

theorem not_picks_of_judgeOption {remark : String} (h : judgeOption views line = .error remark) :
    ¬Picks views line v := by
  intro picks
  rw [judgeOption_of_picks picks] at h
  cases h

theorem judgeOption_of_not_picks (none : ∀ v, ¬Picks views line v) :
    ∃ remark, TurnedDown views line remark ∧ judgeOption views line = .error remark := by
  obtain ⟨v, picks, -⟩ | turned := judgeOption_cases views line
  · exact absurd picks (none v)
  · exact turned

end Picks

/-! ## Questions -/

/-- What is printed for lines that are turned down: for each of them the prompt and the remark. -/
def refusals (remarks : List String) : String :=
  String.join (remarks.map fun remark => prompt ++ remark ++ "\n")

section Ask

variable {α : Type} {judge : String → Except String α} {before : List String}
  {remarks : List String}

/-- Lines that are turned down are passed over, each with its remark. -/
theorem ask_append (turned : before.Forall₂ (fun line remark => judge line = .error remark) remarks)
    (rest : List String) : ask judge (before ++ rest) =
      ⟨(ask judge rest).answer, (ask judge rest).left,
        refusals remarks ++ (ask judge rest).printed⟩ := by
  induction turned with
  | nil => simp [refusals]
  | @cons line remark before remarks hline turned ih =>
    rw [List.cons_append, ask, hline, ih]
    simp [refusals, String.append_assoc]

/-- The first line that is accepted is the answer. -/
theorem ask_of_accepted
    (turned : before.Forall₂ (fun line remark => judge line = .error remark) remarks)
    {line : String} {a : α} (accepted : judge line = .ok a) (after : List String) :
    ask judge (before ++ line :: after) = ⟨some a, after, refusals remarks ++ prompt⟩ := by
  rw [ask_append turned, ask, accepted]

/-- Where none is accepted there is no answer. -/
theorem ask_of_refused
    (turned : before.Forall₂ (fun line remark => judge line = .error remark) remarks) :
    ask judge before = ⟨none, [], refusals remarks ++ prompt⟩ := by
  have h := ask_append turned []
  rwa [List.append_nil] at h

end Ask

/-! ## Picking an option -/

/-- What is printed before an option is asked for: the menu, after the resources if notes of every
level are shown. -/
def opening (env : Environment) (views : List ChoiceView) (resources : Resources) :
    Except NumberFault String :=
  if isDebugging env then
    resources.shown.map fun shown =>
      direction ("State: " ++ shown) ++ menu "Choices" (views.map optionLabel)
  else .ok (menu "Choices" (views.map optionLabel))

section PickOption

variable {env : Environment} {views : List ChoiceView} {resources : Resources}

/-- Options are presented unless the resources are to be shown and cannot be, in which case they
cannot be saved either. -/
theorem exists_opening (h : isDebugging env = false ∨ resources.toJson.Writable) :
    ∃ text, opening env views resources = .ok text := by
  rw [opening]
  split
  · next debugging =>
    obtain hnot | writable := h
    · rw [hnot] at debugging
      cases debugging
    · obtain ⟨shown, hshown⟩ := writable.shown
      exact ⟨_, map_ok_iff.2 ⟨shown, hshown, rfl⟩⟩
  · exact ⟨_, rfl⟩

theorem on_pickOption (c : Console) :
    (pickOption env views resources).on c =
      match opening env views resources with
      | .ok text => (question (judgeOption views)).on { c with output := c.output ++ text }
      | .error fault => (.error (.number fault), c) := by
  rw [pickOption, opening]
  split
  · cases hshown : resources.shown with
    | error fault =>
      rw [Act.on_bind, Act.on_known]
      rfl
    | ok shown =>
      rw [Act.on_bind, Act.on_known]
      simp only [mapError_ok, Act.on_bind, print, Act.on_change, Except.map, String.append_assoc]
  · rfl

/-- Lines none of which picks an option are turned down. -/
theorem exists_remarks {lines : List String} (none : ∀ line ∈ lines, ∀ v, ¬Picks views line v) :
    ∃ remarks, lines.Forall₂ (TurnedDown views) remarks ∧
      lines.Forall₂ (fun line remark => judgeOption views line = .error remark) remarks := by
  induction lines with
  | nil => exact ⟨[], .nil, .nil⟩
  | cons line rest ih =>
    obtain ⟨hline, hrest⟩ := List.forall_mem_cons.1 none
    obtain ⟨remark, turned, hjudge⟩ := judgeOption_of_not_picks hline
    obtain ⟨remarks, others, hjudges⟩ := ih hrest
    exact ⟨remark :: remarks, .cons turned others, .cons hjudge hjudges⟩

/-- Among lines there is a first one that picks an option, or none does. -/
theorem exists_first_pick (views : List ChoiceView) (lines : List String) :
    (∃ before line after v, lines = before ++ line :: after ∧
        (∀ earlier ∈ before, ∀ w, ¬Picks views earlier w) ∧ Picks views line v) ∨
      ∀ line ∈ lines, ∀ v, ¬Picks views line v := by
  induction lines with
  | nil => exact .inr (List.forall_mem_nil _)
  | cons line rest ih =>
    by_cases hline : ∃ v, Picks views line v
    · obtain ⟨v, picks⟩ := hline
      exact .inl ⟨[], line, rest, v, rfl, List.forall_mem_nil _, picks⟩
    · have hnone : ∀ v, ¬Picks views line v := fun v picks => hline ⟨v, picks⟩
      obtain ⟨before, first, after, v, rfl, hbefore, picks⟩ | hrest := ih
      · exact .inl ⟨line :: before, first, after, v, rfl,
          List.forall_mem_cons.2 ⟨hnone, hbefore⟩, picks⟩
      · exact .inr (List.forall_mem_cons.2 ⟨hnone, hrest⟩)

section Shown

variable {c : Console} {text : String} (shown : opening env views resources = .ok text)

include shown

theorem on_pickOption_of_picks {before after : List String} {line : String} {v : ChoiceView}
    (lines : c.input = before ++ line :: after)
    (earlier : ∀ earlier ∈ before, ∀ w, ¬Picks views earlier w) (picks : Picks views line v) :
    ∃ remarks, before.Forall₂ (TurnedDown views) remarks ∧
      (pickOption env views resources).on c = (.ok v.option, { c with
        input := after
        output := c.output ++ text ++ refusals remarks ++ prompt }) := by
  obtain ⟨remarks, turned, hjudge⟩ := exists_remarks earlier
  refine ⟨remarks, turned, ?_⟩
  have hask := ask_of_accepted hjudge (judgeOption_of_picks picks) after
  rw [← lines] at hask
  rw [on_pickOption, shown]
  simp only [question, Act.on_of, hask, String.append_assoc]

theorem on_pickOption_of_none (none : ∀ line ∈ c.input, ∀ v, ¬Picks views line v) :
    ∃ remarks, c.input.Forall₂ (TurnedDown views) remarks ∧
      (pickOption env views resources).on c = (.error .endOfInput, { c with
        input := []
        output := c.output ++ text ++ refusals remarks ++ prompt }) := by
  obtain ⟨remarks, turned, hjudge⟩ := exists_remarks none
  refine ⟨remarks, turned, ?_⟩
  rw [on_pickOption, shown]
  simp only [question, Act.on_of, ask_of_refused hjudge, String.append_assoc]

end Shown

/-- Letting the player pick an option takes the first line that picks one:

* Options are presented unless the resources are to be shown before them and hold a number that
  can neither be shown nor saved.  Then nothing is read or printed.
* The answer is the option of the first line that picks one.  That line and those before it are
  read and no more, and each line before it is turned down with one remark.
* Where no line picks an option all of them are turned down, and the input ends.  That is so only
  then, and always if every option is locked.
* An option that is answered is one that may be picked. -/
theorem first_pick_is_taken (env : Environment) (views : List ChoiceView) (resources : Resources)
    (c : Console) :
    (isDebugging env = false ∨ resources.toJson.Writable →
      ∃ text, opening env views resources = .ok text) ∧
    (∀ fault, opening env views resources = .error fault →
      (pickOption env views resources).on c = (.error (.number fault), c)) ∧
    ∀ text, opening env views resources = .ok text →
      (∀ before line after v, c.input = before ++ line :: after →
        (∀ earlier ∈ before, ∀ w, ¬Picks views earlier w) → Picks views line v →
        ∃ remarks, before.Forall₂ (TurnedDown views) remarks ∧
          (pickOption env views resources).on c = (.ok v.option, { c with
            input := after
            output := c.output ++ text ++ refusals remarks ++ prompt })) ∧
      ((∀ line ∈ c.input, ∀ v, ¬Picks views line v) →
        ∃ remarks, c.input.Forall₂ (TurnedDown views) remarks ∧
          (pickOption env views resources).on c = (.error .endOfInput, { c with
            input := []
            output := c.output ++ text ++ refusals remarks ++ prompt })) ∧
      ((∃ after, (pickOption env views resources).on c = (.error .endOfInput, after)) ↔
        ∀ line ∈ c.input, ∀ v, ¬Picks views line v) ∧
      ((∀ v ∈ views, v.selectable = false) →
        ∃ after, (pickOption env views resources).on c = (.error .endOfInput, after)) ∧
      ∀ option after, (pickOption env views resources).on c = (.ok option, after) →
        ∃ v ∈ views, v.selectable = true ∧ v.option = option := by
  refine ⟨exists_opening, fun fault hfault => by rw [on_pickOption, hfault], fun text shown => ?_⟩
  have ended : (∀ line ∈ c.input, ∀ v, ¬Picks views line v) →
      ∃ after, (pickOption env views resources).on c = (.error .endOfInput, after) := by
    intro none
    obtain ⟨remarks, -, hon⟩ := on_pickOption_of_none shown none
    exact ⟨_, hon⟩
  refine ⟨fun before line after v => on_pickOption_of_picks shown, on_pickOption_of_none shown,
    ⟨?_, ended⟩, fun locked => ended ?_, fun option after hon => ?_⟩
  · rintro ⟨after, hon⟩
    obtain ⟨before, line, rest, v, lines, earlier, picks⟩ | none :=
      exists_first_pick views c.input
    · obtain ⟨remarks, -, hpick⟩ := on_pickOption_of_picks shown lines earlier picks
      rw [hpick] at hon
      cases hon
    · exact none
  · rintro line - v ⟨place, -, found, selectable⟩
    rw [locked v (List.mem_of_getElem? found)] at selectable
    cases selectable
  · obtain ⟨before, line, rest, v, lines, earlier, picks⟩ | none :=
      exists_first_pick views c.input
    · obtain ⟨remarks, -, hpick⟩ := on_pickOption_of_picks shown lines earlier picks
      rw [hpick] at hon
      cases hon
      obtain ⟨place, -, found, selectable⟩ := picks
      exact ⟨v, List.mem_of_getElem? found, selectable, rfl⟩
    · obtain ⟨remarks, -, hnone⟩ := on_pickOption_of_none shown none
      rw [hnone] at hon
      cases hon

/-- At a locked gate and an open one: no number, a number of no option, and that of the locked
one, before the number of the open one in digits of two scripts, and a line that is left. -/
theorem open_gate_is_picked :
    let env : Environment :=
      ⟨Table.ofList [("TALEWEAVE_DEBUG", "1")], Table.empty, false, Path.ofText "/app"⟩
    let north : ChoiceView := ⟨⟨"n", "North gate", "hall", none, none, none⟩, false, ""⟩
    let south : ChoiceView := ⟨⟨"s", "South gate", "yard", none, none, none⟩, true, ""⟩
    let before := ["south", "0", "1"]
    let c : Console := ⟨before ++ " +0_\u0662\t" :: ["1"], "", [], ⟨[], []⟩⟩
    let coins : Resources := Table.ofList [("coins", .number (.int 3))]
    let text := "[State: \x7b'coins': 3\x7d]\n\n=== Choices ===\n" ++
      "1. North gate (locked)\n2. South gate\n"
    coins.toJson.Writable ∧ opening env [north, south] coins = .ok text ∧
      (∀ earlier ∈ before, ∀ w, ¬Picks [north, south] earlier w) ∧
      Picks [north, south] " +0_\u0662\t" south ∧
      ∃ remarks, before.Forall₂ (TurnedDown [north, south]) remarks ∧
        (pickOption env [north, south] coins).on c = (.ok south.option, { c with
          input := ["1"]
          output := c.output ++ text ++ refusals remarks ++ prompt }) := by
  intro env north south before c coins text
  have writable : coins.toJson.Writable := by
    have short : 3 < Numeral.firstUnwritable :=
      (length_toDigits_le_iff (by decide)).1 (by decide +kernel)
    have amount : Json.Writable (.number (.int 3) : Json) := Json.writable_number.2 fun n h => by
      cases h
      exact short
    exact Json.writable_object.2 (List.forall_mem_cons.2 ⟨amount, List.forall_mem_nil _⟩)
  have shown : opening env [north, south] coins = .ok text := by decide +kernel
  have earlier : ∀ earlier ∈ before, ∀ w, ¬Picks [north, south] earlier w := by
    refine List.forall_mem_cons.2 ⟨fun w => ?_, List.forall_mem_cons.2 ⟨fun w => ?_,
      List.forall_mem_cons.2 ⟨fun w => ?_, List.forall_mem_nil _⟩⟩⟩
    · exact not_picks_of_judgeOption
        (show judgeOption _ _ = .error "Please enter a number." by decide +kernel)
    · exact not_picks_of_judgeOption
        (show judgeOption _ _ = .error (outOfRange 2) by decide +kernel)
    · exact not_picks_of_judgeOption
        (show judgeOption _ _ = .error "That option is locked." by decide +kernel)
  have picks : Picks [north, south] " +0_\u0662\t" south :=
    ⟨1, readNumber?_iff.1 (by decide +kernel), rfl, rfl⟩
  obtain ⟨-, -, presented⟩ := first_pick_is_taken env [north, south] coins c
  obtain ⟨taken, -⟩ := presented text shown
  exact ⟨writable, shown, earlier, picks, taken before _ ["1"] south rfl earlier picks⟩

end PickOption

end Storyline.Console
