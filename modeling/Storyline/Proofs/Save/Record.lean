import Storyline.Proofs.Json.RoundTrip
import Storyline.Proofs.Resources
import Storyline.Save.Record

/-!
# Storyline.Proofs.Save.Record

Laws of the records that are kept of runs.  The text of a record does not depend on
the order of its resources, and if the record is *joined*, reading it gives the record
back with its resources in the order of their names.
-/

namespace Storyline.Save.Record

variable {τ : Type} [Textual τ] [DecidableEq τ]

theorem writeChars_toJson_of_same {r s : Resources τ} (h : r.Same s) :
    Json.writeChars r.toJson = Json.writeChars s.toJson :=
  Json.writeChars_object_of_perm h.perm r.nodup_names

/-- The order in which the resources came in does not show in the text. -/
theorem text_of_same (episode node : τ) (version : Version) {r s : Resources τ} (h : r.Same s) :
    text ⟨episode, node, r, version⟩ = text ⟨episode, node, s, version⟩ := by
  simp only [text, toJson, payload, Json.write, Json.writeChars, Json.writeMembers,
    writeChars_toJson_of_same h]

/-! ## Reading a record -/

omit [DecidableEq τ] in
theorem sorted_of_isValue {j : Json τ} (h : j.isValue = true) : j.sorted = j := by
  cases j with
  | number a => rfl
  | string s => rfl
  | _ => cases h

theorem sorted_resources {r : Resources τ} (h : r.Typed) :
    r.toJson.sorted = .object r.inOrder.entries := by
  have heach : ∀ e ∈ r.entries, (e.1, e.2.sorted) = e := by
    intro e he
    rw [sorted_of_isValue (Table.holds_iff.1 h e he)]
  rw [Resources.toJson, Json.sorted, Json.sortedMembers_eq_map, List.map_congr_left heach,
    List.map_id']
  rfl

omit [DecidableEq τ] in
/-- The record with its resources in the order of their names. -/
def inOrder (r : Record τ) : Record τ := { r with resources := r.resources.inOrder }

omit [Textual τ] in
/-- Two records are the same, the resources taken as mappings. -/
structure Same (r s : Record τ) : Prop where
  episode : r.episode = s.episode
  node : r.node = s.node
  resources : Table.Same r.resources s.resources
  version : r.version = s.version

theorem inOrder_same (r : Record τ) : r.inOrder.Same r :=
  ⟨rfl, rfl, r.resources.inOrder_same, rfl⟩

omit [Textual τ] in
theorem Same.symm {r s : Record τ} (h : r.Same s) : s.Same r :=
  ⟨h.episode.symm, h.node.symm, h.resources.symm, h.version.symm⟩

omit [Textual τ] in
theorem Same.trans {r s t : Record τ} (h : r.Same s) (h' : s.Same t) : r.Same t :=
  ⟨h.episode.trans h'.episode, h.node.trans h'.node, h.resources.trans h'.resources,
    h.version.trans h'.version⟩

/-- Whether all texts of a record are joined. -/
structure Joined (r : Record τ) : Prop where
  episode : (wide r.episode).Joined
  node : (wide r.node).Joined
  names : ∀ name ∈ r.resources.names, (wide name).Joined
  texts : ∀ name s, r.resources.find? name = some (.string s) → (wide s).Joined

/-- The texts of a record of strings are joined. -/
theorem joined_string (r : Record) : r.Joined :=
  ⟨WideString.joined_ofString _, WideString.joined_ofString _,
    fun _ _ => WideString.joined_ofString _, fun _ _ _ => WideString.joined_ofString _⟩

theorem Same.joined {r s : Record τ} (h : r.Same s) (joined : r.Joined) : s.Joined where
  episode := h.episode ▸ joined.episode
  node := h.node ▸ joined.node
  names name hname := joined.names name ((h.resources.perm.map Prod.fst).mem_iff.2 hname)
  texts name text htext := joined.texts name text ((h.resources name).trans htext)

omit [DecidableEq τ] in
theorem names_payload (r : Record τ) : r.payload.map Prod.fst =
    ["episodeId", "nodeId", "resources", "version"].map ofString := rfl

omit [DecidableEq τ] in
theorem nodup_payload (r : Record τ) : (r.payload.map Prod.fst).Nodup := by
  have hnames : ["episodeId", "nodeId", "resources", "version"].Pairwise (· ≠ ·) := by decide
  rw [names_payload, List.Nodup, List.pairwise_map]
  exact hnames.imp fun hne h => hne (ofString_injective h)

/-- The fields of a record stand in the order of their names. -/
theorem sorted_toJson {r : Record τ} (h : r.resources.Typed) :
    r.toJson.sorted = r.inOrder.toJson := by
  have hversion : (r.version.toJson : Json τ).sorted = r.version.toJson := by
    cases r.version <;> rfl
  have hnames : (r.inOrder.payload.map Prod.fst).Pairwise fun a b => wide a ≤ wide b := by
    rw [names_payload, List.pairwise_map]
    simp only [Textual.wide_ofString]
    decide
  rw [toJson, Json.sorted, payload]
  simp only [Json.sortedMembers, Json.sorted, hversion, sorted_resources h]
  rw [List.pairwise_map] at hnames
  exact congrArg Json.object (sortBy_of_pairwise _ hnames)

theorem wellFormed_toJson {r : Record τ} (h : r.resources.Typed) (joined : r.Joined) :
    r.toJson.WellFormed := by
  have hvalues : ∀ e ∈ r.resources.entries, e.2.WellFormed := by
    rintro ⟨name, j⟩ he
    have hvalue := Table.holds_iff.1 h (name, j) he
    cases j with
    | number a => exact .number a
    | string s => exact .string (joined.texts name s (Table.find?_eq_some_iff.2 he))
    | _ => cases hvalue
  have hresources : r.resources.toJson.WellFormed :=
    .object r.resources.nodup_names (fun e he => joined.names _ (List.mem_map_of_mem he)) hvalues
  have hversion : (r.version.toJson : Json τ).WellFormed := by
    cases r.version with
    | truth => exact .bool true
    | _ => exact .number _
  have hnames : ∀ e ∈ r.payload, (wide e.1).Joined := by
    simp only [payload, List.forall_mem_cons, Textual.wide_ofString]
    exact ⟨WideString.joined_ofString _, WideString.joined_ofString _,
      WideString.joined_ofString _, WideString.joined_ofString _, List.forall_mem_nil _⟩
  have heach : ∀ e ∈ r.payload, e.2.WellFormed := by
    simp only [payload, List.forall_mem_cons]
    exact ⟨.string joined.episode, .string joined.node, hresources, hversion,
      List.forall_mem_nil _⟩
  exact .object (nodup_payload r) hnames heach

omit [Textual τ] [DecidableEq τ] in
theorem ofJson?_toJson (version : Version) :
    Version.ofJson? (version.toJson : Json τ) = some version := by
  cases version with
  | whole => rfl
  | double =>
    have hone : (Binary64.nearest false Binary64.one 1).toInt? = some 1 := by decide +kernel
    rw [Version.toJson, Version.ofJson?, if_pos hone]
  | truth => rfl

section Fields

variable {fields : Table (Json τ) τ} {resources : Resources τ}

theorem versionField_ok_iff {version : Version} : versionField fields = .ok version ↔
    ∃ j, fields.find? (ofString "version") = some j ∧ Version.ofJson? j = some version := by
  rw [versionField]
  cases fields.find? (ofString "version") with
  | none => exact iff_of_false (fun h => by cases h) (by rintro ⟨j, h, -⟩; cases h)
  | some j =>
    simp only [Option.getD_some, Option.some.injEq, exists_eq_left']
    cases Version.ofJson? j with
    | some found => simp only [Except.ok.injEq, Option.some.injEq]
    | none => cases j.shown <;> exact iff_of_false (fun h => by cases h) (fun h => by cases h)

theorem stringField_ok_iff {name : String} {s : τ} :
    stringField fields name = .ok s ↔ fields.find? (ofString name) = some (.string s) := by
  rw [stringField]
  split
  · next found hfound => rw [hfound, Except.ok.injEq, Option.some.injEq, Json.string.injEq]
  · next hother => exact iff_of_false (fun h => by cases h) (hother s)

omit [Textual τ] in
/-- Members can be resources if all of them are amounts and texts. -/
theorem ofMembers_ok_iff {members : Table (Json τ) τ} :
    ofMembers members = .ok resources ↔ resources = members ∧ members.Holds (·.isValue = true) := by
  rw [ofMembers]
  split
  · next name j hfound =>
    refine iff_of_false (fun h => by cases h) fun ⟨_, typed⟩ => ?_
    have hvalue := Table.holds_iff.1 typed _ (List.mem_of_find?_eq_some hfound)
    have hamiss := List.find?_some hfound
    rw [hvalue] at hamiss
    cases hamiss
  · next hnone =>
    have typed : members.Holds (·.isValue = true) := by
      refine Table.holds_iff.2 fun e he => ?_
      have hvalue := List.find?_eq_none.1 hnone e he
      simpa using hvalue
    rw [Except.ok.injEq, eq_comm]
    exact ⟨fun h => ⟨h, typed⟩, fun h => h.1⟩

/-- Resources are read from an object of amounts and texts; if there is none, or null, they are
empty. -/
theorem resourcesField_ok_iff : resourcesField fields = .ok resources ↔
    (fields.find? (ofString "resources") = none ∨
        fields.find? (ofString "resources") = some .null) ∧ resources = Table.empty ∨
      ∃ members, fields.find? (ofString "resources") = some (.object members) ∧
        resources = Table.ofList members ∧ (Table.ofList members).Holds (·.isValue = true) := by
  rw [resourcesField]
  cases fields.find? (ofString "resources") with
  | none =>
    constructor
    · intro h
      cases h
      exact .inl ⟨.inl rfl, rfl⟩
    · rintro (⟨-, rfl⟩ | ⟨members, h, -⟩)
      · rfl
      · cases h
  | some j =>
    cases j with
    | null =>
      constructor
      · intro h
        cases h
        exact .inl ⟨.inr rfl, rfl⟩
      · rintro (⟨-, rfl⟩ | ⟨members, h, -⟩)
        · rfl
        · cases h
    | object members => simp [ofMembers_ok_iff]
    | _ => simp

/-- A record is read from an object if each of its fields is. -/
theorem ofJson_object_ok_iff {members : List (τ × Json τ)} {record : Record τ} :
    ofJson (.object members) = .ok record ↔
      versionField (Table.ofList members) = .ok record.version ∧
      stringField (Table.ofList members) "episodeId" = .ok record.episode ∧
      stringField (Table.ofList members) "nodeId" = .ok record.node ∧
      resourcesField (Table.ofList members) = .ok record.resources := by
  constructor
  · intro h
    obtain ⟨version, hversion, h⟩ := bind_ok_iff.1 h
    obtain ⟨episode, hepisode, h⟩ := bind_ok_iff.1 h
    obtain ⟨node, hnode, h⟩ := bind_ok_iff.1 h
    obtain ⟨resources, hresources, h⟩ := bind_ok_iff.1 h
    cases h
    exact ⟨hversion, hepisode, hnode, hresources⟩
  · rintro ⟨hversion, hepisode, hnode, hresources⟩
    simp only [ofJson, hversion, hepisode, hnode, hresources]
    rfl

end Fields

/-- A record whose resources are amounts and texts is what its JSON is read as. -/
theorem ofJson_toJson {r : Record τ} (h : r.resources.Typed) : ofJson r.toJson = .ok r := by
  have hfind : ∀ {name j}, (name, j) ∈ r.payload →
      (Table.ofList r.payload).find? name = some j := by
    intro name j hmem
    rw [Table.find?_ofList (nodup_payload r)]
    exact Table.lookup_of_mem (nodup_payload r) hmem
  have hself : Table.ofList r.resources.entries = r.resources :=
    Table.ext_entries (Table.entries_ofList r.resources.nodup_names)
  rw [toJson, ofJson_object_ok_iff, versionField_ok_iff, stringField_ok_iff, stringField_ok_iff,
    resourcesField_ok_iff]
  refine ⟨⟨_, hfind (by simp [payload]), ofJson?_toJson r.version⟩, hfind (by simp [payload]),
    hfind (by simp [payload]), .inr ⟨r.resources.entries, hfind ?_, ?_⟩⟩
  · simp [payload, Resources.toJson]
  · rw [hself]
    exact ⟨rfl, h⟩

/-- The text of a record is read as that record, with its resources in order. -/
theorem read_text {r : Record τ} (h : r.resources.Typed) (joined : r.Joined) {text : String}
    (ht : r.text = .ok text) : Json.read (ofString text) = .ok r.inOrder.toJson := by
  rw [Json.read_write (wellFormed_toJson h joined) ht, sorted_toJson h]

/-- Records that are the same have one text. -/
theorem text_eq_of_same {r s : Record τ} (h : r.Same s) : r.text = s.text := by
  obtain ⟨episode, node, resources, version⟩ := r
  obtain ⟨rfl, rfl, hresources, rfl⟩ := h
  exact text_of_same _ _ _ hresources

/-- Records that have one text are the same, if they are joined. -/
theorem same_of_text_eq {r s : Record τ} (hr : r.resources.Typed) (hs : s.resources.Typed)
    (joined : r.Joined) (joined' : s.Joined) {text : String} (hrt : r.text = .ok text)
    (hst : s.text = .ok text) : r.Same s := by
  have hjson : r.inOrder.toJson = s.inOrder.toJson :=
    Except.ok.inj ((read_text hr joined hrt).symm.trans (read_text hs joined' hst))
  have hrecord : r.inOrder = s.inOrder := by
    have hread := ofJson_toJson (r := r.inOrder) (Resources.typed_inOrder hr)
    rw [hjson, ofJson_toJson (r := s.inOrder) (Resources.typed_inOrder hs)] at hread
    exact (Except.ok.inj hread).symm
  exact r.inOrder_same.symm.trans (hrecord ▸ s.inOrder_same)

end Storyline.Save.Record
