import Storyline.Proofs.Rehearsal
import Storyline.Proofs.Save.Codec

/-!
# Storyline.Proofs.Save.History

What a gateway recalls after any history of requests.  If its store has its texts in a table,
all that matters of a history is which saves were not refused: the record in a slot is that of
the latest of them there, and the last record is that of the latest of them all.  The slots do
not get in each other's way because no two have one key.
-/

namespace Storyline.Save

variable {σ ε : Type}

/-! ## Slots -/

/-- Whether a slot has a key: it is not negative and not too long. -/
def IsSlot (slot : Int) : Prop :=
  0 ≤ slot ∧ (Nat.toDigits 10 slot.natAbs).length ≤ Numeral.digitLimit

instance decideIsSlot (slot : Int) : Decidable (IsSlot slot) :=
  inferInstanceAs (Decidable (_ ∧ _))

/-- The key of a slot that has one. -/
def keyOf (slot : Int) : String :=
  "taleweave-save-" ++ String.ofList (Nat.toDigits 10 slot.natAbs)

theorem slotKey_ok_iff {slot : Int} {key : String} :
    slotKey (ε := ε) slot = .ok key ↔ IsSlot slot ∧ key = keyOf slot := by
  have hlength : (Nat.toDigits 10 slot.natAbs).length ≤ Numeral.digitLimit ↔
      slot.natAbs < Numeral.firstUnwritable := length_toDigits_le_iff (by decide)
  rw [slotKey, IsSlot, hlength]
  by_cases hsign : slot < 0
  · simp only [if_pos hsign, reduceCtorEq, false_iff]
    omega
  · have hchars : Numeral.chars slot = Nat.toDigits 10 slot.natAbs := if_neg hsign
    rw [if_neg hsign]
    by_cases hshort : slot.natAbs < Numeral.firstUnwritable
    · rw [Numeral.write_of_lt hshort, hchars]
      constructor
      · intro h
        cases h
        exact ⟨⟨by omega, hshort⟩, rfl⟩
      · rintro ⟨-, rfl⟩
        rfl
    · rw [Numeral.write, if_neg hshort]
      constructor
      · intro h
        cases h
      · rintro ⟨⟨-, h⟩, -⟩
        exact absurd h hshort

theorem toList_keyOf (slot : Int) :
    (keyOf slot).toList = "taleweave-save-".toList ++ Nat.toDigits 10 slot.natAbs := by
  rw [keyOf, String.toList_append]
  exact congrArg _ String.toList_ofList

/-- No two slots have one key. -/
theorem keyOf_inj {slot other : Int} (h : 0 ≤ slot) (h' : 0 ≤ other)
    (heq : keyOf slot = keyOf other) : slot = other := by
  have hchars := congrArg String.toList heq
  rw [toList_keyOf, toList_keyOf] at hchars
  have hdigits := List.append_cancel_left hchars
  have hnat : slot.natAbs = other.natAbs := by
    calc slot.natAbs
      _ = Nat.ofDigitChars 10 (Nat.toDigits 10 slot.natAbs) 0 := Nat.ofDigitChars_ten_toDigits.symm
      _ = Nat.ofDigitChars 10 (Nat.toDigits 10 other.natAbs) 0 := by rw [hdigits]
      _ = other.natAbs := Nat.ofDigitChars_ten_toDigits
  omega

/-! ## Requests -/

/-- What is asked of a gateway. -/
inductive Request
  | save (record : Record) (slot : Int)
  | load (slot : Int)
  | loadFor (episode : String) (slot : Int)

/-- The slot that is asked about. -/
def Request.slot : Request → Int
  | .save _ slot | .load slot | .loadFor _ slot => slot

/-- Whether what is to be saved has amounts and texts for resources. -/
def Request.Typed : Request → Prop
  | .save record _ => record.resources.Typed
  | .load _ | .loadFor _ _ => True

namespace Gateway

/-- Serves a request. -/
def serve (store : Store σ ε) : Request → Act (Gateway σ) (GatewayFault ε) (Option Record)
  | .save record slot => do
    save store record slot
    return none
  | .load slot => load store slot
  | .loadFor episode slot => loadFor store episode slot

/-- The save that a request comes to, with its slot: none if it is refused. -/
def shelved (store : Store σ ε) (g : Gateway σ) : Request → Option (Int × Record)
  | .save record slot =>
    match ((save store record slot).on g).1 with
    | .ok () => some (slot, record)
    | .error _ => none
  | .load _ | .loadFor _ _ => none

/-- The gateway after requests, one after the other, whatever is answered. -/
def after (store : Store σ ε) (requests : List Request) (g : Gateway σ) : Gateway σ :=
  requests.foldl (fun g request => ((serve store request).on g).2) g

/-- The saves among requests that are not refused, in their order. -/
def history (store : Store σ ε) : List Request → Gateway σ → List (Int × Record)
  | [], _ => []
  | request :: rest, g =>
    (shelved store g request).toList ++ history store rest ((serve store request).on g).2

end Gateway

/-- The record of the latest save in a slot. -/
def latest (slot : Int) (saves : List (Int × Record)) : Option Record :=
  (saves.filter fun save => save.1 = slot).getLast?.map Prod.snd

theorem latest_append (slot into : Int) (record : Record) (saves : List (Int × Record)) :
    latest slot (saves ++ [(into, record)]) =
      if into = slot then some record else latest slot saves := by
  rw [latest, List.filter_append]
  by_cases h : into = slot
  · simp [h]
  · simp [h, latest]

namespace Gateway

/-- A gateway recalls saves if its last record is that of the latest of them, and if under the
key of a slot there is the text of the record of the latest of them in that slot. -/
structure Recalls (texts : σ → Table String) (g : Gateway σ) (saves : List (Int × Record)) :
    Prop where
  last : g.last = saves.getLast?.map Prod.snd
  slots : ∀ slot, IsSlot slot →
    Option.Rel (fun record text => record.resources.Typed ∧ record.text = .ok text)
      (latest slot saves) ((texts g.world).find? (keyOf slot))

/-! ## What a request does -/

section NoKey

variable {slot : Int} {fault : GatewayFault ε} (h : slotKey slot = .error fault)

include h

theorem on_save_of_error (store : Store σ ε) (record : Record) (g : Gateway σ) :
    (save store record slot).on g = (.error fault, g) := by
  simp only [save, Act.on_bind, Act.on_known, h]
  rfl

theorem on_load_of_error (store : Store σ ε) (g : Gateway σ) :
    (load store slot).on g = (.error fault, g) := by
  simp only [load, Act.on_bind, Act.on_known, h]
  rfl

end NoKey

/-- A request about a slot without a key is refused and changes nothing. -/
theorem on_serve_of_error {request : Request} {fault : GatewayFault ε}
    (h : slotKey request.slot = .error fault) (store : Store σ ε) (g : Gateway σ) :
    (serve store request).on g = (.error fault, g) := by
  cases request with
  | save record slot =>
    have hsave := on_save_of_error h store record g
    rw [Request.slot] at hsave
    rw [serve, Act.on_bind, hsave]
  | load slot => exact on_load_of_error h store g
  | loadFor episode slot =>
    have hload := on_load_of_error h store g
    rw [Request.slot] at hload
    rw [serve, loadFor, Act.on_bind, hload]

/-- A save is not refused if the record has a text and the store takes it. -/
theorem on_save_written {store : Store σ ε} {record : Record} {slot : Int} {text : String}
    {g : Gateway σ} {world : σ} (isSlot : IsSlot slot) (encoded : record.text = .ok text)
    (written : (store.write (keyOf slot) text).on g.world = (.ok (), world)) :
    ((save store record slot).on g).1 = .ok () := by
  have hsave := on_save_in (slotKey_ok_iff.2 ⟨isSlot, rfl⟩) store record g
  simp only [encoded, written] at hsave
  rw [hsave]

/-- A request that is refused saves nothing. -/
theorem shelved_of_error {request : Request} {g now : Gateway σ} {fault : GatewayFault ε}
    (h : (serve store request).on g = (.error fault, now)) : shelved store g request = none := by
  cases request with
  | save record slot =>
    rw [serve, Act.on_bind] at h
    cases hsave : (save store record slot).on g with
    | mk answer later =>
      rw [hsave] at h
      cases answer with
      | ok _ => cases h
      | error _ => rw [shelved, hsave]
  | load slot => rfl
  | loadFor episode slot => rfl

section Tabled

variable {store : Store σ ε} {texts : σ → Table String} (tabled : store.Tabled texts)

include tabled

/-- What is loaded is read from the text under the key; no text changes. -/
theorem on_load {slot : Int} {key : String} (hkey : slotKey (ε := ε) slot = .ok key)
    (g : Gateway σ) :
    ∃ world, texts world = texts g.world ∧ (load store slot).on g =
      (match (texts g.world).find? key with
        | none => .ok none
        | some text => (readRecord slot text).map some, { g with world }) := by
  obtain ⟨after, hread, htexts⟩ := tabled.read key g.world
  simp only [load, Act.on_bind, Act.on_known, hkey, mapError_ok, on_ofStore, hread]
  cases (texts g.world).find? key with
  | none => exact ⟨after, htexts, rfl⟩
  | some text =>
    simp only [Act.on_bind, Act.on_known]
    cases hrecord : readRecord (ε := ε) slot text with
    | error fault => exact ⟨after, htexts, rfl⟩
    | ok record =>
      exact ⟨_, (tabled.note (.loaded record.episode record.node slot) after).trans htexts, rfl⟩

/-- For an episode what is in the slot is loaded, if it belongs to the episode. -/
theorem on_loadFor_in (episode : String) (slot : Int) (g : Gateway σ) :
    ∃ world, texts world = texts ((load store slot).on g).2.world ∧
      (loadFor store episode slot).on g =
        (((load store slot).on g).1.map fun found =>
            found.filter fun record => record.episode = episode,
          { ((load store slot).on g).2 with world }) := by
  rw [loadFor, Act.on_bind]
  cases (load store slot).on g with
  | mk answer mid =>
    cases answer with
    | error fault => exact ⟨mid.world, rfl, rfl⟩
    | ok found =>
      cases found with
      | none => exact ⟨mid.world, rfl, rfl⟩
      | some record =>
        by_cases h : record.episode = episode
        · simp only [if_pos h, Except.map, Option.filter, decide_eq_true h]
          exact ⟨mid.world, rfl, rfl⟩
        · simp only [if_neg h, Except.map, Option.filter, decide_eq_false h]
          exact ⟨_, tabled.note (.foreignSave record.episode episode) mid.world, rfl⟩

/-- Loading leaves the texts and the last record as they are. -/
theorem load_leaves (slot : Int) (g : Gateway σ) :
    texts ((load store slot).on g).2.world = texts g.world ∧
      ((load store slot).on g).2.last = g.last := by
  cases hkey : slotKey (ε := ε) slot with
  | error fault =>
    rw [on_load_of_error hkey]
    exact ⟨rfl, rfl⟩
  | ok key =>
    obtain ⟨world, htexts, hload⟩ := on_load tabled hkey g
    rw [hload]
    exact ⟨htexts, rfl⟩

/-- A save puts the text of the record under the key of the slot, and the record is the last
one; or it is refused, and nothing changes. -/
theorem on_save_cases (record : Record) (slot : Int) (g : Gateway σ) :
    (∃ text now, (save store record slot).on g = (.ok (), now) ∧
      IsSlot slot ∧ record.text = .ok text ∧
      texts now.world = (texts g.world).insert (keyOf slot) text ∧ now.last = some record) ∨
    ∃ fault now, (save store record slot).on g = (.error fault, now) ∧
      texts now.world = texts g.world ∧ now.last = g.last := by
  cases hkey : slotKey (ε := ε) slot with
  | error fault => exact .inr ⟨fault, g, on_save_of_error hkey store record g, rfl, rfl⟩
  | ok key =>
    obtain ⟨isSlot, rfl⟩ := slotKey_ok_iff.1 hkey
    have hsave := on_save_in hkey store record g
    cases htext : record.text with
    | error fault =>
      rw [htext] at hsave
      exact .inr ⟨_, g, hsave, rfl, rfl⟩
    | ok text =>
      cases hwrite : (store.write (keyOf slot) text).on g.world with
      | mk answer world =>
        simp only [htext, hwrite] at hsave
        cases answer with
        | ok _ =>
          have htexts := tabled.taken _ text g.world world hwrite
          exact .inl ⟨text, _, hsave, isSlot, rfl, (tabled.note _ world).trans htexts, rfl⟩
        | error fault =>
          have htexts := tabled.refused _ text g.world fault world hwrite
          exact .inr ⟨_, _, hsave, htexts, rfl⟩

/-- A request that saves nothing leaves the texts and the last record as they are. -/
theorem serve_leaves {request : Request} {g : Gateway σ} (h : shelved store g request = none) :
    texts ((serve store request).on g).2.world = texts g.world ∧
      ((serve store request).on g).2.last = g.last := by
  cases request with
  | save record slot =>
    simp only [serve, Act.on_bind]
    obtain ⟨text, now, hsave, -⟩ | ⟨fault, now, hsave, htexts, hlast⟩ :=
      on_save_cases tabled record slot g
    · rw [shelved, hsave] at h
      cases h
    · rw [hsave]
      exact ⟨htexts, hlast⟩
  | load slot => exact load_leaves tabled slot g
  | loadFor episode slot =>
    obtain ⟨hload, hlast⟩ := load_leaves tabled slot g
    obtain ⟨world, htexts, hloadFor⟩ := on_loadFor_in tabled episode slot g
    rw [serve, hloadFor]
    exact ⟨htexts.trans hload, hlast⟩

/-! ## What is recalled -/

variable {saves : List (Int × Record)} {g : Gateway σ}

/-- A request adds to what is recalled the save it comes to. -/
theorem recalls_serve (recalls : Recalls texts g saves) {request : Request}
    (typed : request.Typed) : Recalls texts ((serve store request).on g).2
      (saves ++ (shelved store g request).toList) := by
  cases hshelved : shelved store g request with
  | none =>
    obtain ⟨htexts, hlast⟩ := serve_leaves tabled hshelved
    rw [Option.toList_none, List.append_nil]
    exact ⟨hlast.trans recalls.last, by rw [htexts]; exact recalls.slots⟩
  | some shelf =>
    cases request with
    | load slot => cases hshelved
    | loadFor episode slot => cases hshelved
    | save record slot =>
      obtain ⟨text, now, hsave, isSlot, htext, htexts, hlast⟩ | ⟨fault, now, hsave, -⟩ :=
        on_save_cases tabled record slot g
      · rw [shelved, hsave] at hshelved
        cases hshelved
        have hserve : ((serve store (.save record slot)).on g).2 = now := by
          rw [serve, Act.on_bind, hsave]
          rfl
        rw [hserve, Option.toList_some]
        refine ⟨by rw [hlast, List.getLast?_concat]; rfl, fun other isOther => ?_⟩
        rw [latest_append, htexts, Table.find?_insert]
        by_cases h : slot = other
        · rw [if_pos h, if_pos (congrArg keyOf h)]
          exact .some ⟨typed, htext⟩
        · -- Another slot has another key, so the text there is what it was.
          have hkeys : ¬keyOf slot = keyOf other := fun heq => h (keyOf_inj isSlot.1 isOther.1 heq)
          rw [if_neg h, if_neg hkeys]
          exact recalls.slots other isOther
      · rw [shelved, hsave] at hshelved
        cases hshelved

/-- After any requests the saves that were not refused are recalled. -/
theorem recalls_after {requests : List Request} (typed : ∀ request ∈ requests, request.Typed)
    (recalls : Recalls texts g saves) :
    Recalls texts (after store requests g) (saves ++ history store requests g) := by
  induction requests generalizing g saves with
  | nil => rwa [history, List.append_nil]
  | cons request rest ih =>
    obtain ⟨hrequest, hrest⟩ := List.forall_mem_cons.1 typed
    rw [history, ← List.append_assoc]
    exact ih hrest (recalls_serve tabled recalls hrequest)

/-- What is recalled in a slot is loaded from there. -/
theorem on_load_recalled (recalls : Recalls texts g saves) {slot : Int} (isSlot : IsSlot slot) :
    ((load store slot).on g).1 = .ok ((latest slot saves).map Record.inOrder) := by
  obtain ⟨world, -, hload⟩ := on_load tabled (slotKey_ok_iff.2 ⟨isSlot, rfl⟩) g
  have hslot := recalls.slots slot isSlot
  rw [hload]
  cases hlatest : latest slot saves with
  | none =>
    rw [hlatest] at hslot
    cases h : (texts g.world).find? (keyOf slot) with
    | none => rfl
    | some text => rw [h] at hslot; cases hslot
  | some record =>
    rw [hlatest] at hslot
    cases h : (texts g.world).find? (keyOf slot) with
    | none => rw [h] at hslot; cases hslot
    | some text =>
      rw [h] at hslot
      obtain ⟨typed, htext⟩ : record.resources.Typed ∧ record.text = .ok text := by
        cases hslot with
        | some h => exact h
      have hread : readRecord (ε := ε) slot text = .ok record.inOrder :=
        readRecord_text typed record.joined_string htext slot
      simp only [hread, Except.map, Option.map_some]

end Tabled

/-- A gateway that nothing was saved through, over an empty store in memory some of whose
writes will go wrong. -/
def vacant : Gateway (Rehearsal.Progress (Table String)) :=
  ⟨none, ⟨Table.empty, 0, 0, [], [], []⟩⟩

theorem recalls_vacant : Recalls (fun p => p.store) vacant [] where
  last := rfl
  slots _ _ := .none

end Gateway

end Storyline.Save
