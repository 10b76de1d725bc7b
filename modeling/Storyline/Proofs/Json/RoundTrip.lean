import Storyline.Proofs.Json.Inherited
import Storyline.Proofs.Json.Number
import Storyline.Proofs.Json.Text
import Storyline.Proofs.Json.Writer

/-!
# Storyline.Proofs.Json.RoundTrip

What is written is read back, with the members of every object in the order of their
names.  Two things are asked of a value: no object in it has a name twice, and all its texts
are joined.
-/

namespace Storyline.Json

variable {τ : Type} [Textual τ]

/-! ## Values in order -/

mutual

/-- A value with the members of every object in the order of their names. -/
def sorted : Json τ → Json τ
  | .array items => .array (sortedItems items)
  | .object members => .object (sortBy (fun e => wide e.1) (sortedMembers members))
  | j => j

/-- The items of an array, each of them in order. -/
def sortedItems : List (Json τ) → List (Json τ)
  | [] => []
  | item :: rest => sorted item :: sortedItems rest

/-- The members of an object, each of their values in order. -/
def sortedMembers : List (τ × Json τ) → List (τ × Json τ)
  | [] => []
  | (name, value) :: rest => (name, sorted value) :: sortedMembers rest

end

theorem sortedMembers_eq_map (members : List (τ × Json τ)) :
    sortedMembers members = members.map fun e => (e.1, sorted e.2) := by
  induction members with
  | nil => rfl
  | cons e rest ih => rw [sortedMembers, ih, List.map_cons]

theorem names_sortedMembers (members : List (τ × Json τ)) :
    (sortedMembers members).map Prod.fst = members.map Prod.fst := by
  rw [sortedMembers_eq_map, List.map_map]
  rfl

/-- A value in whose objects all names differ and all of whose texts are joined. -/
inductive WellFormed : Json τ → Prop
  | null : WellFormed .null
  | bool (b : Bool) : WellFormed (.bool b)
  | number (a : Amount) : WellFormed (.number a)
  | string {s : τ} (joined : (wide s).Joined) : WellFormed (.string s)
  | array {items : List (Json τ)} (each : ∀ item ∈ items, WellFormed item) :
    WellFormed (.array items)
  | object {members : List (τ × Json τ)} (distinct : (members.map Prod.fst).Nodup)
    (joined : ∀ e ∈ members, (wide e.1).Joined) (each : ∀ e ∈ members, WellFormed e.2) :
    WellFormed (.object members)

theorem WellFormed.distinct {members : List (τ × Json τ)} (formed : WellFormed (.object members)) :
    (members.map Prod.fst).Nodup := by
  cases formed with
  | object distinct _ _ => exact distinct

variable [DecidableEq τ]

theorem WellFormed.lookup {members : List (τ × Json τ)} {name : τ} {j : Json τ}
    (formed : WellFormed (.object members)) (found : Table.lookup name members = some j) :
    j.WellFormed := by
  cases formed with
  | object _ _ each => exact each _ (Table.mem_of_lookup found)

omit [DecidableEq τ] in
theorem inherited_wellFormed :
    Inherited (fun s : τ => (wide s).Joined) (WellFormed (τ := τ)) where
  string := .string
  word := by
    simp only [words, List.forall_mem_cons]
    exact ⟨.null, .bool _, .bool _, .number _, .number _, .number _, List.forall_mem_nil _⟩
  number _ _ := .number _
  array := .array
  object {members} h := .object members.nodup_names (fun e he => (h e he).1) fun e he => (h e he).2

/-- What is read is well formed if the strings that are read are joined. -/
theorem wellFormed_read {text : τ} (joined : ReadsFine (wide text) fun s : τ => (wide s).Joined)
    {j : Json τ} (h : read text = .ok j) : j.WellFormed :=
  inherited_wellFormed.read joined h

/-- What is read as strings is, for a string is always joined. -/
theorem wellFormed_read_string {text : String} {j : Json} (h : read text = .ok j) : j.WellFormed :=
  wellFormed_read (fun _ _ s _ _ => WideString.joined_ofString s) h

/-- In a text without halves all strings that are read are joined. -/
theorem readsFine_ofString (text : String) :
    ReadsFine (.ofString text) fun s : WideString => (wide s).Joined := by
  intro opening cs s rest h
  obtain ⟨⟨points, after⟩, hpoints, hs⟩ := map_ok_iff.1 h
  cases hs
  exact isChain_readPoints hpoints

variable {text : WideString}

/-! ## Where values start -/

/-- A text that starts with what neither stands between tokens nor closes an array. -/
def StartsValue (cs : List Char) : Prop := ∃ c rest, cs = c :: rest ∧ isGap c = false ∧ c ≠ ']'

theorem StartsValue.append {cs : List Char} (h : StartsValue cs) (rest : List Char) :
    StartsValue (cs ++ rest) := by
  obtain ⟨c, cs, rfl, hc⟩ := h
  exact ⟨c, cs ++ rest, rfl, hc⟩

theorem skipGap_cons {c : Char} (h : isGap c = false) (rest : List Char) :
    skipGap (c :: rest) = c :: rest :=
  List.dropWhile_cons_of_neg (by simp [h])

theorem skipGap_gap {c : Char} (h : isGap c = true) (rest : List Char) :
    skipGap (c :: rest) = skipGap rest :=
  List.dropWhile_cons_of_pos h

theorem StartsValue.skipGap_eq {cs : List Char} (h : StartsValue cs) : skipGap cs = cs := by
  obtain ⟨c, rest, rfl, hc, -⟩ := h
  exact skipGap_cons hc rest

/-- Whether a character may be the first one of a number or a word. -/
def IsScalarHead (c : Char) : Prop := c.isDigit = true ∨ c ∈ ['-', 'N', 'I', 'n', 't', 'f']

theorem IsScalarHead.ne {c d : Char} (h : IsScalarHead c)
    (hd : d.isDigit = false ∧ d ∉ ['-', 'N', 'I', 'n', 't', 'f']) : c ≠ d := by
  rintro rfl
  rcases h with h | h
  · rw [hd.1] at h
    cases h
  · exact hd.2 h

theorem IsScalarHead.startsValue {c : Char} (h : IsScalarHead c) (rest : List Char) :
    StartsValue (c :: rest) := by
  refine ⟨c, rest, rfl, ?_, h.ne (by decide)⟩
  simp [isGap, h.ne (d := ' ') (by decide), h.ne (d := '\t') (by decide),
    h.ne (d := '\n') (by decide), h.ne (d := '\r') (by decide)]

/-- A number starts like a scalar. -/
theorem isScalarHead_of_writeAmount {a : Amount} {text : String} (h : writeAmount a = .ok text) :
    ∃ c rest, text.toList = c :: rest ∧ IsScalarHead c := by
  obtain ⟨c, rest, htext, hc⟩ := writeAmount_head h
  exact ⟨c, rest, htext, hc.imp_right fun hm => List.mem_append_left ['n', 't', 'f'] hm⟩

theorem readValue_scalar {c : Char} (h : IsScalarHead c) (fuel : Nat) (rest : List Char) :
    (readValue text (fuel + 1) (c :: rest) : Except Refusal (Json τ × List Char)) =
      readScalar (c :: rest) := by
  rw [readValue]
  all_goals
    intro after heq
    exact h.ne (by decide) (List.cons.inj heq).1

omit [DecidableEq τ] in
/-- What is written for a value starts like a value. -/
theorem startsValue_writeChars {j : Json τ} {cs : List Char} (h : writeChars j = .ok cs) :
    StartsValue cs := by
  cases j with
  | null => cases h; exact ⟨'n', _, rfl, by decide, by decide⟩
  | bool b => cases b <;> cases h <;> exact ⟨_, _, rfl, by decide, by decide⟩
  | number a =>
    rw [writeChars] at h
    cases ha : writeAmount a with
    | error fault => simp only [ha] at h; contradiction
    | ok text =>
      rw [ha] at h
      obtain ⟨c, rest, htext, hhead⟩ := isScalarHead_of_writeAmount ha
      rw [← Except.ok.inj h, htext]
      exact hhead.startsValue rest
  | string s => cases h; exact ⟨'"', _, rfl, by decide, by decide⟩
  | array items =>
    rw [writeChars] at h
    cases hi : writeItems items with
    | error fault => simp only [hi] at h; contradiction
    | ok parts => rw [hi] at h; cases h; exact ⟨'[', _, rfl, by decide, by decide⟩
  | object members =>
    rw [writeChars] at h
    cases hm : writeMembers members with
    | error fault => simp only [hm] at h; contradiction
    | ok parts => rw [hm] at h; cases h; exact ⟨'\x7b', _, rfl, by decide, by decide⟩

/-! ## Reading back -/

theorem endsNumber_cons {c : Char} (h : c.isDigit = false ∧ c ≠ '.' ∧ c ≠ 'e' ∧ c ≠ 'E')
    (rest : List Char) : EndsNumber (c :: rest) := by
  intro d hd
  cases hd
  exact h

theorem separated_cons_of_ne_nil (separator : String) (part : List Char)
    {parts : List (List Char)} (h : parts ≠ []) :
    separated separator (part :: parts) =
      part ++ (separator.toList ++ separated separator parts) := by
  rw [separated, List.append_assoc]
  exact h

theorem separated_cons (part : List Char) {parts : List (List Char)} (h : parts ≠ []) :
    separated ", " (part :: parts) = part ++ ',' :: ' ' :: separated ", " parts :=
  separated_cons_of_ne_nil ", " part h

/-- The text of a value is read back where it stands in a text, whatever follows that cannot
belong to a number. -/
def ReadsBack (text : WideString) (j : Json τ) : Prop :=
  ∀ cs, writeChars j = .ok cs → ∀ rest fuel, EndsNumber rest → cs.length ≤ fuel →
    readValue text fuel (cs ++ rest) = .ok (sorted j, rest)

/-- The items of an array are read back up to its closing bracket. -/
theorem readItems_written {items : List (Json τ)} (nonempty : items ≠ [])
    (each : ∀ item ∈ items, ReadsBack text item) {parts : List (List Char)}
    (hw : writeItems items = .ok parts) (rest : List Char) {fuel : Nat}
    (hf : (separated ", " parts).length < fuel) :
    StartsValue (separated ", " parts) ∧
      readItems text fuel (separated ", " parts ++ ']' :: rest) =
        .ok (sortedItems items, rest) := by
  induction items generalizing parts fuel with
  | nil => exact absurd rfl nonempty
  | cons item items ih =>
    obtain ⟨part, others, hpart, hothers, rfl⟩ := writeItems_cons_ok hw
    have hread := each item List.mem_cons_self part hpart
    cases fuel with
    | zero => cases hf
    | succ fuel =>
      cases items with
      | nil =>
        cases hothers
        constructor
        · exact startsValue_writeChars hpart
        · rw [separated] at hf ⊢
          rw [readItems, hread _ _ (endsNumber_cons (by decide) rest) (Nat.lt_succ_iff.1 hf)]
          rfl
      | cons next items =>
        have hne : others ≠ [] := by
          obtain ⟨_, _, _, _, rfl⟩ := writeItems_cons_ok hothers
          exact List.cons_ne_nil _ _
        rw [separated_cons part hne] at hf ⊢
        simp only [List.length_append, List.length_cons] at hf
        have hfuel : (separated ", " others).length < fuel := by omega
        obtain ⟨hstart, hrest⟩ := ih (List.cons_ne_nil _ _)
          (fun i hi => each i (List.mem_cons_of_mem _ hi)) hothers hfuel
        constructor
        · exact (startsValue_writeChars hpart).append _
        · rw [List.append_assoc, List.cons_append, readItems,
            hread _ _ (endsNumber_cons (by decide) _) (by omega)]
          simp only [bind, Except.bind, skipGap_cons (c := ',') (by decide)]
          have hskip : skipGap (' ' :: separated ", " others ++ ']' :: rest) =
              separated ", " others ++ ']' :: rest := (hstart.append _).skipGap_eq
          rw [hskip, hrest]
          rfl

omit [DecidableEq τ] in
theorem writeMember_append (name : τ) (part rest : List Char) :
    writeMember (name, part) ++ rest =
      '"' :: ((wide name).points.flatMap writePoint ++ '"' :: ':' :: ' ' :: (part ++ rest)) := by
  simp [writeMember, writeString]

/-- The members of an object are read back up to its closing brace. -/
theorem readMembers_written {members : List (τ × Json τ)} (nonempty : members ≠ [])
    (joined : ∀ e ∈ members, (wide e.1).Joined)
    (each : ∀ e ∈ members, ReadsBack text e.2) {parts : List (τ × List Char)}
    (hw : writeMembers members = .ok parts) (rest : List Char) {fuel : Nat}
    (hf : (separated ", " (parts.map writeMember)).length < fuel) :
    (∃ after, separated ", " (parts.map writeMember) = '"' :: after) ∧
      readMembers text fuel (separated ", " (parts.map writeMember) ++ '\x7d' :: rest) =
        .ok (sortedMembers members, rest) := by
  induction members generalizing parts fuel with
  | nil => exact absurd rfl nonempty
  | cons e members ih =>
    obtain ⟨name, value⟩ := e
    obtain ⟨part, others, hpart, hothers, rfl⟩ := writeMembers_cons_ok hw
    have hread := each (name, value) List.mem_cons_self part hpart
    have hname : (wide name).Joined := joined (name, value) List.mem_cons_self
    have hstart := startsValue_writeChars hpart
    have hlength : part.length < (writeMember (name, part)).length := by
      simp only [writeMember, List.length_append, List.length_cons]
      omega
    cases fuel with
    | zero => cases hf
    | succ fuel =>
      rw [List.map_cons] at hf ⊢
      cases members with
      | nil =>
        cases hothers
        constructor
        · exact ⟨_, by rw [List.map_nil, separated, writeMember, writeString]; rfl⟩
        · rw [List.map_nil, separated] at hf ⊢
          rw [writeMember_append, readMembers, readString_written text _ hname]
          simp only [bind, Except.bind, skipGap_cons (c := ':') (by decide)]
          have hskip : skipGap (' ' :: (part ++ '\x7d' :: rest)) = part ++ '\x7d' :: rest :=
            (hstart.append _).skipGap_eq
          rw [hskip, hread _ _ (endsNumber_cons (by decide) rest) (by omega)]
          rfl
      | cons next members =>
        have hne : others.map writeMember ≠ [] := by
          obtain ⟨_, _, _, _, rfl⟩ := writeMembers_cons_ok hothers
          exact List.cons_ne_nil _ _
        rw [separated_cons _ hne] at hf ⊢
        simp only [List.length_append, List.length_cons] at hf
        have hfuel : (separated ", " (others.map writeMember)).length < fuel := by omega
        obtain ⟨⟨after, hafter⟩, hrest⟩ := ih (List.cons_ne_nil _ _)
          (fun e he => joined e (List.mem_cons_of_mem _ he))
          (fun e he => each e (List.mem_cons_of_mem _ he)) hothers hfuel
        constructor
        · exact ⟨_, by rw [writeMember_append]⟩
        · rw [List.append_assoc, List.cons_append, writeMember_append, readMembers,
            readString_written text _ hname]
          simp only [bind, Except.bind, skipGap_cons (c := ':') (by decide)]
          have hskip : ∀ cs, skipGap (' ' :: (part ++ cs)) = part ++ cs := fun cs =>
            (hstart.append cs).skipGap_eq
          rw [hskip, hread _ _ (endsNumber_cons (by decide) _) (by omega)]
          simp only [skipGap_cons (c := ',') (by decide)]
          have hskip' : skipGap (' ' :: separated ", " (others.map writeMember) ++ '\x7d' :: rest) =
              separated ", " (others.map writeMember) ++ '\x7d' :: rest := by
            rw [hafter]
            exact skipGap_cons (c := '"') (by decide) _
          rw [hskip', hrest]
          rfl

theorem readValue_items {cs : List Char} (h : StartsValue cs) (fuel : Nat) :
    readValue text (fuel + 1) ('[' :: cs) =
      (readItems text fuel cs).map fun (items, rest) => ((.array items : Json τ), rest) := by
  obtain ⟨c, rest, rfl, hgap, hclose⟩ := h
  rw [readValue, skipGap_cons hgap]
  split
  · next heq => exact absurd (List.cons.inj heq).1 hclose
  · rfl

theorem readValue_members (rest : List Char) (fuel : Nat) :
    readValue text (fuel + 1) ('\x7b' :: '"' :: rest) =
      (readMembers text fuel ('"' :: rest)).map fun (members, rest) =>
        ((.object (Table.ofList members).entries : Json τ), rest) := by
  rw [readValue, skipGap_cons (by decide)]
  rfl

theorem readsBack_array {items : List (Json τ)} (each : ∀ item ∈ items, ReadsBack text item) :
    ReadsBack text (.array items) := by
  intro cs hw rest fuel hr hf
  rw [writeChars] at hw
  cases hi : writeItems items with
  | error fault => simp only [hi] at hw; contradiction
  | ok parts =>
    rw [hi] at hw
    cases hw
    cases fuel with
    | zero => cases hf
    | succ fuel =>
      cases items with
      | nil => cases hi; rfl
      | cons item items =>
        simp only [List.length_cons, List.length_append, List.length_nil] at hf
        have hfuel : (separated ", " parts).length < fuel := by omega
        obtain ⟨hstart, hread⟩ := readItems_written (List.cons_ne_nil _ _) each hi rest hfuel
        have htext : '[' :: separated ", " parts ++ [']'] ++ rest =
            '[' :: (separated ", " parts ++ ']' :: rest) := by simp
        rw [htext, readValue_items (hstart.append _), hread]
        rfl

/-- Members whose names are in order and differ are read back as they are. -/
theorem readValue_written_object {members : List (τ × Json τ)}
    {parts : List (τ × List Char)}
    (distinct : (members.map Prod.fst).Nodup) (joined : ∀ e ∈ members, (wide e.1).Joined)
    (each : ∀ e ∈ members, ReadsBack text e.2)
    (hw : writeMembers members = .ok parts) (rest : List Char) {fuel : Nat}
    (hf : (separated ", " (parts.map writeMember)).length + 1 < fuel) :
    readValue text fuel ('\x7b' :: (separated ", " (parts.map writeMember) ++ '\x7d' :: rest)) =
      .ok (.object (sortedMembers members), rest) := by
  cases fuel with
  | zero => cases hf
  | succ fuel =>
    cases members with
    | nil => cases hw; rfl
    | cons e members =>
      obtain ⟨⟨after, hafter⟩, hread⟩ := readMembers_written (List.cons_ne_nil _ _) joined each hw
        rest (Nat.lt_of_succ_lt_succ hf)
      have hentries : (Table.ofList (sortedMembers (e :: members))).entries =
          sortedMembers (e :: members) := Table.entries_ofList (by rwa [names_sortedMembers])
      rw [hafter, List.cons_append, readValue_members, ← List.cons_append, ← hafter, hread]
      simp only [Except.map, hentries]

omit [DecidableEq τ] in
theorem sortedMembers_sortBy (members : List (τ × Json τ)) :
    sortedMembers (sortBy (fun e => wide e.1) members) =
      sortBy (fun e => wide e.1) (sortedMembers members) := by
  rw [sortedMembers_eq_map, sortedMembers_eq_map]
  exact (sortBy_map (fun e : τ × Json τ => wide e.1) (f := fun e => (e.1, sorted e.2))
    (fun _ => rfl) members).symm

/-- An object is written with its members in order, so they may as well be taken in order. -/
theorem readsBack_object {members : List (τ × Json τ)}
    (distinct : (members.map Prod.fst).Nodup) (joined : ∀ e ∈ members, (wide e.1).Joined)
    (each : ∀ e ∈ members, ReadsBack text e.2) : ReadsBack text (.object members) := by
  intro cs hw rest fuel hr hf
  have hperm : members.Perm (sortBy (fun e => wide e.1) members) := (perm_sortBy _ members).symm
  rw [writeChars_object_of_perm hperm distinct, writeChars] at hw
  cases hm : writeMembers (sortBy (fun e => wide e.1) members) with
  | error fault => simp only [hm] at hw; contradiction
  | ok parts =>
    have horder : sortBy (fun part => wide part.1) parts = parts := by
      have hnames : (parts.map Prod.fst).Pairwise fun a b => wide a ≤ wide b := by
        rw [names_of_writeMembers hm, List.pairwise_map]
        exact pairwise_sortBy (fun e : τ × Json τ => wide e.1) members
      rw [List.pairwise_map] at hnames
      exact sortBy_of_pairwise _ hnames
    rw [hm] at hw
    simp only [bind, Except.bind, horder] at hw
    rw [← Except.ok.inj hw] at hf ⊢
    simp only [List.length_cons, List.length_append, List.length_nil] at hf
    have hfuel : (separated ", " (parts.map writeMember)).length + 1 < fuel := by omega
    have hread := readValue_written_object ((hperm.map Prod.fst).nodup_iff.1 distinct)
      (fun e he => joined e (hperm.mem_iff.2 he)) (fun e he => each e (hperm.mem_iff.2 he)) hm rest
      hfuel
    rw [sorted, ← sortedMembers_sortBy, ← hread]
    simp

/-- A value whose text is read as a scalar is read back. -/
theorem readsBack_of_scalar {j : Json τ} (hsorted : sorted j = j)
    (hscalar : ∀ cs, writeChars j = .ok cs → (∃ c after, cs = c :: after ∧ IsScalarHead c) ∧
      ∀ rest, EndsNumber rest → readScalar (cs ++ rest) = .ok (j, rest)) : ReadsBack text j := by
  intro cs hw rest fuel hr hf
  obtain ⟨⟨c, after, rfl, hhead⟩, hread⟩ := hscalar cs hw
  cases fuel with
  | zero => cases hf
  | succ fuel =>
    rw [List.cons_append, readValue_scalar hhead, ← List.cons_append, hread rest hr, hsorted]

theorem readsBack_null : ReadsBack text (.null : Json τ) := by
  apply readsBack_of_scalar rfl
  intro cs hw
  cases hw
  refine ⟨⟨'n', _, rfl, .inr (by decide)⟩, fun _ _ => ?_⟩
  simp [readScalar, readWord?, words, isPrefixOf?_cons, isPrefixOf?_nil]

theorem readsBack_bool (b : Bool) : ReadsBack text (.bool b : Json τ) := by
  apply readsBack_of_scalar rfl
  intro cs hw
  cases b with
  | false =>
    cases hw
    refine ⟨⟨'f', _, rfl, .inr (by decide)⟩, fun _ _ => ?_⟩
    simp [readScalar, readWord?, words, isPrefixOf?_cons, isPrefixOf?_nil]
  | true =>
    cases hw
    refine ⟨⟨'t', _, rfl, .inr (by decide)⟩, fun _ _ => ?_⟩
    simp [readScalar, readWord?, words, isPrefixOf?_cons, isPrefixOf?_nil]

theorem readsBack_number (a : Amount) : ReadsBack text (.number a : Json τ) := by
  apply readsBack_of_scalar rfl
  intro cs hw
  rw [writeChars] at hw
  cases ha : writeAmount a with
  | error fault => simp only [ha] at hw; contradiction
  | ok text =>
    rw [ha] at hw
    have hcs : text.toList = cs := Except.ok.inj hw
    subst hcs
    exact ⟨isScalarHead_of_writeAmount ha, fun _ hr => readScalar_writeAmount ha hr⟩

theorem readValue_writeString (fuel : Nat) {s : τ} (joined : (wide s).Joined) (rest : List Char) :
    readValue text (fuel + 1) (writeString s ++ rest) = .ok (.string s, rest) := by
  have htext : writeString s ++ rest =
      '"' :: ((wide s).points.flatMap writePoint ++ '"' :: rest) := by simp [writeString]
  rw [htext, readValue, readString_written text _ joined]
  rfl

theorem readsBack_string {s : τ} (joined : (wide s).Joined) : ReadsBack text (.string s) := by
  intro cs hw rest fuel hr hf
  cases hw
  cases fuel with
  | zero => cases hf
  | succ fuel => exact readValue_writeString fuel joined rest

/-- Every value that is well formed is read back, in order. -/
theorem readsBack (text : WideString) {j : Json τ} (h : WellFormed j) : ReadsBack text j := by
  induction h with
  | null => exact readsBack_null
  | bool b => exact readsBack_bool b
  | number a => exact readsBack_number a
  | string joined => exact readsBack_string joined
  | array each ih => exact readsBack_array ih
  | object distinct joined each ih => exact readsBack_object distinct joined ih

/-- A text that was written is read as the value it was written for, in order. -/
theorem read_write {j : Json τ} (h : WellFormed j) {text : String} (hw : j.write = .ok text) :
    read (ofString text) = .ok (sorted j) := by
  rw [write] at hw
  cases hj : writeChars j with
  | error fault => simp only [hj] at hw; contradiction
  | ok cs =>
    rw [hj] at hw
    rw [← Except.ok.inj hw, read, Textual.wide_ofString, readText, WideString.faces_ofString,
      String.toList_ofList]
    have hmark : cs.head? ≠ some '\ufeff' := fun e =>
      absurd (isPlain_writeChars hj _ (List.mem_of_mem_head? e)) (by decide)
    have hend : EndsNumber [] := fun c hc => by cases hc
    have hread := readsBack (.ofString (String.ofList cs)) h cs hj [] (2 * cs.length + 2) hend
      (by omega)
    rw [List.append_nil] at hread
    rw [if_neg hmark, (startsValue_writeChars hj).skipGap_eq]
    simp only [hread]
    rfl

end Storyline.Json
