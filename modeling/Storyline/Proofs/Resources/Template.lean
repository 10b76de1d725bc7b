import Storyline.Proofs.Overreach
import Storyline.Proofs.Resources.Requirement

/-!
# Storyline.Proofs.Resources.Template

How a template is filled.  It is read from left to right: an opening brace starts a placeholder if
a closing one follows on the same line, the first of those ends it, and every other character stands
for itself.  Each template has one such reading, whatever is held, and filling it shows the pieces
of the reading one after the other; so nothing that is put in is ever read again.
-/

namespace Storyline

namespace Template

/-! ## Reading -/

/-- A piece of a template. -/
inductive Piece
  /-- A character that stands for itself. -/
  | char (c : Char)
  /-- A placeholder for the resource of a name. -/
  | placeholder (name : List Char)
deriving DecidableEq

/-- A closing brace follows on the same line. -/
def Closes (cs : List Char) : Prop := ∃ name after, cs = name ++ '\x7d' :: after ∧ '\n' ∉ name

/-- The pieces that some characters are read as, from left to right. -/
inductive Scan : List Char → List Piece → Prop
  | done : Scan [] []
  | copied {c : Char} {rest : List Char} {pieces : List Piece}
      (stands : c = '\x7b' → ¬Closes rest) (h : Scan rest pieces) :
      Scan (c :: rest) (.char c :: pieces)
  | filled {name rest : List Char} {pieces : List Piece}
      (first : '\x7d' ∉ name) (line : '\n' ∉ name) (h : Scan rest pieces) :
      Scan ('\x7b' :: (name ++ '\x7d' :: rest)) (.placeholder name :: pieces)

variable {c : Char} {cs name after rest : List Char} {pieces other : List Piece}

/-- The first closing brace is found if it stands on the same line. -/
theorem splitBrace?_append (first : '\x7d' ∉ name) (line : '\n' ∉ name) :
    Resources.splitBrace? (name ++ '\x7d' :: after) = some (name, after) := by
  induction name with
  | nil => rfl
  | cons c name ih =>
    rw [List.mem_cons, not_or] at first line
    rw [List.cons_append, Resources.splitBrace?, if_neg (Ne.symm first.1),
      if_neg (Ne.symm line.1), ih first.2 line.2]
    rfl

/-- What is found is a closing brace on the same line, and the first one. -/
theorem split_of_splitBrace? (h : Resources.splitBrace? cs = some (name, after)) :
    cs = name ++ '\x7d' :: after ∧ '\x7d' ∉ name ∧ '\n' ∉ name := by
  induction cs generalizing name with
  | nil => cases h
  | cons c rest ih =>
    rw [Resources.splitBrace?] at h
    split at h
    · next hc =>
      cases h
      exact ⟨by rw [hc, List.nil_append], List.not_mem_nil, List.not_mem_nil⟩
    · next hbrace =>
      split at h
      · cases h
      · next hline =>
        obtain ⟨⟨found, left⟩, hfound, heq⟩ := Option.map_eq_some_iff.1 h
        cases heq
        obtain ⟨rfl, first, line⟩ := ih hfound
        refine ⟨rfl, ?_, ?_⟩
        · rw [List.mem_cons, not_or]
          exact ⟨Ne.symm hbrace, first⟩
        · rw [List.mem_cons, not_or]
          exact ⟨Ne.symm hline, line⟩

/-- None is found just if no closing brace follows on the same line. -/
theorem splitBrace?_eq_none_iff : Resources.splitBrace? cs = none ↔ ¬Closes cs := by
  constructor
  · rintro h ⟨name, after, rfl, line⟩
    induction name with
    | nil => cases h
    | cons c name ih =>
      rw [List.mem_cons, not_or] at line
      rw [List.cons_append, Resources.splitBrace?, if_neg (Ne.symm line.1)] at h
      split at h
      · cases h
      · exact ih line.2 (Option.map_eq_none_iff.1 h)
  · intro h
    cases hfound : Resources.splitBrace? cs with
    | none => rfl
    | some found =>
      obtain ⟨hsplit, -, line⟩ := split_of_splitBrace? hfound
      exact absurd ⟨found.1, found.2, hsplit, line⟩ h

/-- Whatever the characters are, they can be read. -/
theorem exists_scan (cs : List Char) : ∃ pieces, Scan cs pieces := by
  induction hn : cs.length using Nat.strongRecOn generalizing cs with
  | ind n ih =>
    cases cs with
    | nil => exact ⟨[], .done⟩
    | cons c rest =>
      rw [List.length_cons] at hn
      by_cases opens : c = '\x7b' ∧ Closes rest
      · obtain ⟨rfl, closes⟩ := opens
        cases hfound : Resources.splitBrace? rest with
        | none => exact absurd closes (splitBrace?_eq_none_iff.1 hfound)
        | some found =>
          obtain ⟨rfl, first, line⟩ := split_of_splitBrace? hfound
          have shorter : found.2.length < n := by
            rw [List.length_append, List.length_cons] at hn
            omega
          obtain ⟨pieces, h⟩ := ih _ shorter found.2 rfl
          exact ⟨_, .filled first line h⟩
      · obtain ⟨pieces, h⟩ := ih rest.length (by omega) rest rfl
        exact ⟨_, .copied (fun hc closes => opens ⟨hc, closes⟩) h⟩

/-- They can be read in one way only. -/
theorem scan_unique (h : Scan cs pieces) (h' : Scan cs other) : other = pieces := by
  induction h generalizing other with
  | done => cases h'; rfl
  | copied stands h ih =>
    cases h' with
    | copied _ h' => rw [ih h']
    | filled first line h' => exact absurd ⟨_, _, rfl, line⟩ (stands rfl)
  | @filled name rest pieces first line h ih =>
    have hsplit : Resources.splitBrace? (name ++ '\x7d' :: rest) = some (name, rest) :=
      splitBrace?_append first line
    generalize hcs : name ++ '\x7d' :: rest = cs at h' hsplit
    cases h' with
    | copied stands h' => exact absurd ⟨_, _, hcs.symm, line⟩ (stands rfl)
    | filled first' line' h' =>
      rw [splitBrace?_append first' line'] at hsplit
      cases hsplit
      rw [ih h']

/-! ## Filling -/

/-- What a piece is shown as. -/
def shown (r : Resources) : Piece → Except NumberFault (List Char)
  | .char c => .ok [c]
  | .placeholder name => (r.value (String.ofList name)).display.map String.toList

/-- The pieces, each shown, one after the other. -/
def filling (r : Resources) (pieces : List Piece) : Except NumberFault (List Char) :=
  (pieces.mapM (shown r)).map List.flatten

variable {r : Resources}

theorem filling_char :
    filling r (.char c :: pieces) = (filling r pieces).map (c :: ·) := by
  rw [filling, filling, List.mapM_cons]
  cases pieces.mapM (shown r) <;> rfl

theorem filling_placeholder :
    filling r (.placeholder name :: pieces) =
      (r.value (String.ofList name)).display >>= fun text =>
        (filling r pieces).map (text.toList ++ ·) := by
  rw [filling, filling, List.mapM_cons, shown]
  cases (r.value (String.ofList name)).display with
  | error fault => rfl
  | ok text => cases pieces.mapM (shown r) <;> rfl

/-- Characters of a placeholder that is filled already are passed over. -/
theorem fillChars_passed (r : Resources) (passed rest : List Char) :
    r.fillChars passed.length (passed ++ rest) = r.fillChars 0 rest := by
  induction passed with
  | nil => rfl
  | cons c passed ih => rw [List.length_cons, List.cons_append, Resources.fillChars, ih]

/-- Filling characters is to show the pieces that they are read as. -/
theorem fillChars_eq_filling (h : Scan cs pieces) : r.fillChars 0 cs = filling r pieces := by
  induction h with
  | done => rfl
  | @copied c rest pieces stands h ih =>
    have hnone : (if c = '\x7b' then Resources.splitBrace? rest else none) = none := by
      split
      · next hc => exact splitBrace?_eq_none_iff.2 (stands hc)
      · rfl
    rw [Resources.fillChars, hnone, ih, filling_char]
    cases filling r pieces <;> rfl
  | @filled name rest pieces first line h ih =>
    have hpassed := fillChars_passed r (name ++ ['\x7d']) rest
    rw [List.length_append, List.length_singleton, List.append_assoc, List.singleton_append,
      ih] at hpassed
    rw [Resources.fillChars, if_pos rfl, splitBrace?_append first line, filling_placeholder]
    simp only [hpassed]
    cases filling r pieces <;> rfl

theorem interpolate_eq_filling {template : String} (h : Scan template.toList pieces) :
    r.interpolate template = (filling r pieces).map String.ofList := by
  rw [Resources.interpolate, fillChars_eq_filling h]

/-! ## Literals -/

/-- Characters among which no placeholder starts stand for themselves. -/
theorem scan_literal {literal : List Char} (plain : '\x7b' ∉ literal) (h : Scan rest pieces) :
    Scan (literal ++ rest) (literal.map Piece.char ++ pieces) := by
  induction literal with
  | nil => exact h
  | cons c literal ih =>
    rw [List.mem_cons, not_or] at plain
    exact .copied (fun hc => absurd hc.symm plain.1) (ih plain.2)

/-- A text in which no placeholder starts is read as it stands. -/
theorem scan_of_not_opens
    (never : ∀ before after, cs = before ++ '\x7b' :: after → ¬Closes after) :
    Scan cs (cs.map Piece.char) := by
  induction cs with
  | nil => exact .done
  | cons c rest ih =>
    refine .copied (fun hc => never [] rest (by rw [hc, List.nil_append])) (ih fun before after h => ?_)
    exact never (c :: before) after (by rw [h, List.cons_append])

theorem filling_literal (literal : List Char) :
    filling r (literal.map Piece.char ++ pieces) = (filling r pieces).map (literal ++ ·) := by
  induction literal with
  | nil => cases h : filling r pieces <;> simp only [List.map_nil, List.nil_append, h] <;> rfl
  | cons c literal ih =>
    rw [List.map_cons, List.cons_append, filling_char, ih]
    cases filling r pieces <;> rfl

/-- Characters that stand for themselves are shown as they are. -/
theorem filling_chars (literal : List Char) :
    filling r (literal.map Piece.char) = .ok literal := by
  have h : filling r (literal.map Piece.char ++ []) = (filling r []).map (literal ++ ·) :=
    filling_literal literal
  rw [List.append_nil] at h
  rw [h, filling, List.mapM_nil]
  exact congrArg Except.ok (List.append_nil literal)

/-- The template of a literal and of placeholders, each a name with the literal that follows it. -/
def written (literal : String) (parts : List (String × String)) : String :=
  literal ++ String.join (parts.map fun part => "\x7b" ++ part.1 ++ "\x7d" ++ part.2)

/-- The pieces of that template. -/
def piecesOf (literal : String) : List (String × String) → List Piece
  | [] => literal.toList.map Piece.char
  | part :: rest =>
    literal.toList.map Piece.char ++ .placeholder part.1.toList :: piecesOf part.2 rest

/-- No placeholder starts in a literal. -/
def IsLiteral (text : String) : Prop := '\x7b' ∉ text.toList

instance (text : String) : Decidable (IsLiteral text) := inferInstanceAs (Decidable (¬_))

/-- A text between braces is the name of a placeholder. -/
def IsName (text : String) : Prop := '\x7d' ∉ text.toList ∧ '\n' ∉ text.toList

instance (text : String) : Decidable (IsName text) := inferInstanceAs (Decidable (_ ∧ _))

theorem toList_written_nil (literal : String) : (written literal []).toList = literal.toList := by
  simp [written]

theorem toList_written_cons (literal : String) (part : String × String)
    (rest : List (String × String)) : (written literal (part :: rest)).toList =
      literal.toList ++ '\x7b' :: (part.1.toList ++ '\x7d' :: (written part.2 rest).toList) := by
  simp [written]

theorem scan_written {literal : String} {parts : List (String × String)}
    (plain : IsLiteral literal) (named : ∀ part ∈ parts, IsName part.1 ∧ IsLiteral part.2) :
    Scan (written literal parts).toList (piecesOf literal parts) := by
  induction parts generalizing literal with
  | nil =>
    have h := scan_literal plain .done
    rw [List.append_nil, List.append_nil] at h
    rwa [toList_written_nil, piecesOf]
  | cons part rest ih =>
    obtain ⟨⟨name, next⟩, hrest⟩ := List.forall_mem_cons.1 named
    rw [toList_written_cons, piecesOf]
    exact scan_literal plain (.filled name.1 name.2 (ih next hrest))

theorem filling_piecesOf (literal : String) (parts : List (String × String)) :
    (filling r (piecesOf literal parts)).map String.ofList =
      (parts.mapM fun part => (r.value part.1).display.map (· ++ part.2)).map
        fun texts => literal ++ String.join texts := by
  induction parts generalizing literal with
  | nil =>
    rw [piecesOf, filling_chars, List.mapM_nil]
    simp [Except.map, pure, Except.pure]
  | cons part rest ih =>
    rw [piecesOf, filling_literal, filling_placeholder, List.mapM_cons, String.ofList_toList]
    have hrest := ih part.2
    cases (r.value part.1).display with
    | error fault => rfl
    | ok text =>
      cases hm : rest.mapM fun part => (r.value part.1).display.map (· ++ part.2) with
      | error fault =>
        rw [hm] at hrest
        rw [map_error_iff.1 hrest]
        rfl
      | ok texts =>
        rw [hm] at hrest
        obtain ⟨cs, hcs, hjoin⟩ := map_ok_iff.1 hrest
        have hshown : String.ofList (literal.toList ++ (text.toList ++ cs)) =
            literal ++ String.join ((text ++ part.2) :: texts) := by
          rw [String.ofList_append, String.ofList_append, String.ofList_toList,
            String.ofList_toList, hjoin, String.join_cons, String.append_assoc]
        rw [hcs]
        exact congrArg Except.ok hshown

/-! ## What is shown -/

/-- What cannot be shown to a player is, or holds, a whole number that is too long. -/
theorem not_writable_of_display {j : Json} {fault : NumberFault} (h : j.display = .error fault) :
    ¬j.Writable := by
  intro writable
  cases j with
  | number a =>
    obtain ⟨long, -⟩ | ⟨-, shown, hshown⟩ := a.display_cases
    · exact long writable
    · have hdisplay : Json.display (.number a) = .ok shown := hshown
      rw [hdisplay] at h
      cases h
  | string s => cases h
  | _ =>
    obtain ⟨text, htext⟩ := writable.shown
    have hdisplay := htext.symm.trans h
    cases hdisplay

/-- Among amounts and texts that is a whole number of more digits than are ever written. -/
theorem long_of_not_writable {j : Json} (typed : j.isValue = true) (h : ¬j.Writable) :
    ∃ n : Int, j = .number (.int n) ∧ Numeral.digitLimit < (Nat.toDigits 10 n.natAbs).length := by
  obtain ⟨v, rfl⟩ := Resources.isValue_iff.1 typed
  cases v with
  | text s => exact absurd (Json.writable_string s) h
  | number a =>
    cases a with
    | real x => exact absurd (Amount.writable_real x) h
    | int n =>
      refine ⟨n, rfl, Nat.lt_of_not_le fun short => h (Json.writable_number.2 fun m hm => ?_)⟩
      cases hm
      exact (length_toDigits_le_iff (by decide)).1 short

/-- A double whose exact value is a whole number is shown as that number. -/
theorem display_of_rational {x : Binary64} {n : Int}
    (h : (Amount.real x).rational? = some (n : Rat)) :
    Json.display (.number (.real x)) = .ok (String.ofList (Numeral.chars n)) := by
  have hwhole := Amount.toInt?_of_rational h
  rw [Json.display, Amount.display, hwhole]
  exact Numeral.write_of_lt (Amount.lt_of_toInt? hwhole)

/-- Where a template cannot be filled, one of its placeholders stands for what cannot be shown. -/
theorem long_of_filling {fault : NumberFault} (h : filling r pieces = .error fault) :
    ∃ name, .placeholder name ∈ pieces ∧ ¬(r.value (String.ofList name)).Writable := by
  obtain ⟨before, piece, rest, rfl, -, hpiece⟩ := Resources.mapM_error_iff.1 (map_error_iff.1 h)
  cases piece with
  | char c => cases hpiece
  | placeholder name =>
    exact ⟨name, by simp, not_writable_of_display (map_error_iff.1 hpiece)⟩

end Template

namespace Resources

open Template

/-- A template is filled by the pieces it is read as from left to right, and it is read in one way,
whatever is held; it cannot be filled only if a placeholder stands for a whole number of too many
digits.  So literals with placeholders between them are filled by the literals as they stand with
what is held between them, whatever that looks like, and a template in which no placeholder starts
is left as it is.  A double that is a whole number is shown as exactly that number. -/
theorem interpolate_follows_scan :
    (∀ template : String, ∃ pieces, Scan template.toList pieces ∧
      (∀ other, Scan template.toList other → other = pieces) ∧
      ∀ r : Resources, r.interpolate template = (filling r pieces).map String.ofList ∧
        ∀ fault, r.interpolate template = .error fault →
          ∃ name, .placeholder name ∈ pieces ∧ ¬(r.value (String.ofList name)).Writable ∧
            ((r.value (String.ofList name)).isValue = true →
              ∃ n : Int, r.value (String.ofList name) = .number (.int n) ∧
                Numeral.digitLimit < (Nat.toDigits 10 n.natAbs).length)) ∧
    (∀ (r : Resources) (literal : String) (parts : List (String × String)),
      IsLiteral literal → (∀ part ∈ parts, IsName part.1 ∧ IsLiteral part.2) →
        r.interpolate (written literal parts) =
          (parts.mapM fun part => (r.value part.1).display.map (· ++ part.2)).map
            fun texts => literal ++ String.join texts) ∧
    (∀ (r : Resources) (template : String),
      (∀ before after, template.toList = before ++ '\x7b' :: after → ¬Closes after) →
        r.interpolate template = .ok template) ∧
    ∀ (x : Binary64) (n : Int), (Amount.real x).rational? = some (n : Rat) →
      Json.display (.number (.real x)) = .ok (String.ofList (Numeral.chars n)) := by
  refine ⟨fun template => ?_, fun r literal parts plain named => ?_, fun r template never => ?_,
    fun x n => display_of_rational⟩
  · obtain ⟨pieces, scan⟩ := exists_scan template.toList
    refine ⟨pieces, scan, fun other => scan_unique scan, fun r => ?_⟩
    have hfilling := interpolate_eq_filling (r := r) scan
    refine ⟨hfilling, fun fault h => ?_⟩
    rw [hfilling] at h
    obtain ⟨name, hmem, long⟩ := long_of_filling (map_error_iff.1 h)
    exact ⟨name, hmem, long, fun typed => long_of_not_writable typed long⟩
  · rw [interpolate_eq_filling (scan_written plain named), filling_piecesOf]
  · rw [interpolate_eq_filling (scan_of_not_opens never), filling_chars]
    exact congrArg Except.ok String.ofList_toList

/-- What looks like a placeholder is not filled where it was put in, nor where the line ends before
it is closed; an opening brace may stand in the name of a placeholder, and a debt that is too long
to be shown stops the filling. -/
theorem mood_is_not_filled_again :
    let r : Resources := Table.ofList [("mood", .string "\x7bgold\x7d"),
      ("gold", .number (.real (Binary64.ofDecimal false 3 0))),
      ("debt", .number (.int (tenTo Numeral.digitLimit)))]
    r.interpolate (written "Mood\x7d " [("mood", " for "), ("gold", "\n"), ("a\x7bb", "!")]) =
        .ok "Mood\x7d \x7bgold\x7d for 3\n0!" ∧
      r.interpolate "\x7b\n\x7d" = .ok "\x7b\n\x7d" ∧
      r.interpolate (written "Owed: " [("debt", "")]) = .error .unwritable ∧
      ∃ n : Int, r.value "debt" = .number (.int n) ∧
        Numeral.digitLimit < (Nat.toDigits 10 n.natAbs).length := by
  intro r
  obtain ⟨scanned, filled, left, -⟩ := interpolate_follows_scan
  have stopped : r.interpolate (written "Owed: " [("debt", "")]) = .error .unwritable := by
    decide +kernel
  refine ⟨?_, ?_, stopped, ?_⟩
  · have plain : IsLiteral "Mood\x7d " := by decide
    have named : ∀ part ∈ [("mood", " for "), ("gold", "\n"), ("a\x7bb", "!")],
        IsName part.1 ∧ IsLiteral part.2 := by
      decide
    rw [filled r _ _ plain named]
    decide +kernel
  · refine left r _ fun before after h => ?_
    cases before with
    | nil =>
      cases h
      exact splitBrace?_eq_none_iff.1 rfl
    | cons c before =>
      have hrest : ['\n', '\x7d'] = before ++ '\x7b' :: after := (List.cons.inj h).2
      have hmem : '\x7b' ∈ ['\n', '\x7d'] := by
        rw [hrest]
        exact List.mem_append_right before List.mem_cons_self
      exact absurd hmem (by decide)
  · obtain ⟨pieces, -, unique, shows⟩ := scanned (written "Owed: " [("debt", "")])
    obtain ⟨name, hmem, -, long⟩ := (shows r).2 _ stopped
    have hscan : Scan (written "Owed: " [("debt", "")]).toList (piecesOf "Owed: " [("debt", "")]) :=
      scan_written (by decide) (by decide)
    rw [← unique _ hscan] at hmem
    have hname : name = "debt".toList := by simpa [piecesOf] using hmem
    rw [hname] at long
    exact long rfl

end Resources

end Storyline
