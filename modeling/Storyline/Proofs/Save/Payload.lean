import Storyline.Json.Compare
import Storyline.Proofs.Binary64.Nearest
import Storyline.Proofs.Save.Content

/-!
# Storyline.Proofs.Save.Payload

Which JSON values are records.  A value is one just if it is an object with a version that
counts as one, two ids that are strings, and resources that are amounts and texts, or are
missing, or null.  The record then holds these four members as they were, and no others: as JSON
it is the object cut down to them.
-/

namespace Storyline

namespace Save

/-! ## The version -/

namespace Version

/-- A value is a spelling of the version just if it counts as one. -/
theorem exists_ofJson?_iff {j : Json} :
    (∃ version, ofJson? j = some version) ↔ j.same (.number (.int 1)) = true := by
  have hone : (Binary64.one : Int) ≠ 0 := Int.ne_of_gt (Int.natCast_pos.2 Binary64.one_pos)
  cases j with
  | number a =>
    simp only [Json.same, Json.amount?, decide_eq_true_eq]
    cases a with
    | int n =>
      simp only [ofJson?, Amount.standing, Binary64.Standing.at.injEq]
      rw [Int.mul_eq_mul_right_iff hone]
      split
      · next h => exact iff_of_true ⟨_, rfl⟩ h
      · next h => exact iff_of_false (by rintro ⟨_, hn⟩; cases hn) h
    | real x =>
      simp only [ofJson?, Amount.standing, ← Binary64.toInt?_eq_some_iff]
      split
      · next h => exact iff_of_true ⟨_, rfl⟩ h
      · next h => exact iff_of_false (by rintro ⟨_, hn⟩; cases hn) h
  | bool b =>
    cases b with
    | true => simp [ofJson?, Json.same, Json.amount?]
    | false =>
      refine iff_of_false (by rintro ⟨_, h⟩; cases h) fun h => ?_
      simp only [Json.same, Json.amount?, Amount.standing, decide_eq_true_eq, Bool.false_eq_true,
        if_false, Binary64.Standing.at.injEq, Int.zero_mul, Int.one_mul] at h
      exact hone h.symm
  | _ => simp [ofJson?, Json.same, Json.amount?]

/-- A spelling is kept as it was. -/
theorem toJson_of_ofJson? {j : Json} {version : Version} (h : ofJson? j = some version) :
    version.toJson = j := by
  cases j with
  | number a =>
    cases a with
    | int n =>
      rw [ofJson?] at h
      split at h
      · next hn =>
        cases h
        rw [hn]
        rfl
      · cases h
    | real x =>
      rw [ofJson?] at h
      split at h
      · next hx =>
        cases h
        have hsign : decide ((1 : Int) < 0) = false := by decide
        have hone := Binary64.nearest_of_toInt? hx (by decide)
        rw [hsign, Int.natAbs_one, Nat.one_mul] at hone
        rw [toJson, hone]
      · cases h
  | bool b =>
    cases b with
    | true => cases h; rfl
    | false => cases h
  | _ => cases h

end Version

/-! ## The members that count -/

/-- The names of the members that count, in their fixed order. -/
def countedNames : List String := ["episodeId", "nodeId", "resources", "version"]

/-- Whether the members of an object make a record. -/
structure IsPayload (members : List (String × Json)) : Prop where
  version : ∃ j, Table.lookup "version" members = some j ∧ j.same (.number (.int 1)) = true
  episode : ∃ s, Table.lookup "episodeId" members = some (.string s)
  node : ∃ s, Table.lookup "nodeId" members = some (.string s)
  resources : Table.lookup "resources" members = none ∨
    Table.lookup "resources" members = some .null ∨
    ∃ held, Table.lookup "resources" members = some (.object held) ∧
      ∀ e ∈ held, e.2.isValue = true

/-- What stands for the resources: if there are none, or null, it is the empty object. -/
def resourcesOf : Option Json → Json
  | none | some .null => .object []
  | some j => j

/-- The members that count, in their fixed order, with the resources as an object. -/
def counted (members : List (String × Json)) : List (String × Json) :=
  countedNames.map fun name =>
    let found := Table.lookup name members
    (name, if name = "resources" then resourcesOf found else found.getD .null)

/-- An object whose names differ is kept by a table as it is. -/
theorem resources_ofList {held : List (String × Json)} (formed : (Json.object held).WellFormed) :
    Resources.toJson (Table.ofList held) = .object held ∧
      (Resources.Typed (Table.ofList held) ↔ ∀ e ∈ held, e.2.isValue = true) := by
  have hentries := Table.entries_ofList formed.distinct
  rw [Resources.toJson, Resources.Typed, Table.holds_iff, hentries]
  exact ⟨rfl, Iff.rfl⟩

namespace Record

variable {members : List (String × Json)} {record : Record}

/-- Resources are read from what stands for them, if that is an object of amounts and texts. -/
theorem resourcesField_ofList_iff {resources : Resources}
    (formed : (Json.object members).WellFormed) :
    resourcesField (Table.ofList members) = .ok resources ↔
      resourcesOf (Table.lookup "resources" members) = resources.toJson ∧ resources.Typed := by
  rw [resourcesField_ok_iff, ofString_string, Table.find?_ofList formed.distinct]
  constructor
  · rintro (⟨habsent, rfl⟩ | ⟨held, hfound, rfl, typed⟩)
    · refine ⟨?_, fun _ _ h => by cases h⟩
      obtain h | h := habsent <;> rw [h] <;> rfl
    · rw [hfound]
      exact ⟨(resources_ofList (formed.lookup hfound)).1.symm, typed⟩
  · rintro ⟨hstands, typed⟩
    have hempty : Json.object [] = resources.toJson → resources = Table.empty := fun h =>
      Table.ext_entries (Json.object.inj h).symm
    cases hfound : Table.lookup "resources" members with
    | none =>
      rw [hfound] at hstands
      exact .inl ⟨.inl rfl, hempty hstands⟩
    | some j =>
      rw [hfound] at hstands
      cases j with
      | null => exact .inl ⟨.inr rfl, hempty hstands⟩
      | object held =>
        obtain rfl : held = resources.entries := Json.object.inj hstands
        have hself : Table.ofList resources.entries = resources :=
          Table.ext_entries (Table.entries_ofList resources.nodup_names)
        exact .inr ⟨_, rfl, hself.symm, hself.symm ▸ typed⟩
      | _ => cases hstands

/-- A record is read from an object just if its fields are the members that count. -/
theorem ofJson_ok_iff (formed : (Json.object members).WellFormed) :
    ofJson (.object members) = .ok record ↔
      (∃ j, Table.lookup "version" members = some j ∧
        Version.ofJson? j = some record.version) ∧
      Table.lookup "episodeId" members = some (.string record.episode) ∧
      Table.lookup "nodeId" members = some (.string record.node) ∧
      resourcesOf (Table.lookup "resources" members) = record.resources.toJson ∧
      record.resources.Typed := by
  rw [ofJson_object_ok_iff, versionField_ok_iff, stringField_ok_iff, stringField_ok_iff,
    resourcesField_ofList_iff formed]
  simp only [ofString_string, Table.find?_ofList formed.distinct]

/-- An object is a record just if its members make one. -/
theorem exists_ofJson_iff (formed : (Json.object members).WellFormed) :
    (∃ record, ofJson (.object members) = .ok record) ↔ IsPayload members := by
  constructor
  · rintro ⟨record, h⟩
    obtain ⟨⟨j, hversion, hone⟩, hepisode, hnode, hstands, typed⟩ := (ofJson_ok_iff formed).1 h
    refine ⟨⟨j, hversion, Version.exists_ofJson?_iff.1 ⟨_, hone⟩⟩, ⟨_, hepisode⟩, ⟨_, hnode⟩, ?_⟩
    cases hfound : Table.lookup "resources" members with
    | none => exact .inl rfl
    | some found =>
      rw [hfound] at hstands
      cases found with
      | null => exact .inr (.inl rfl)
      | object held =>
        obtain rfl : held = record.resources.entries := Json.object.inj hstands
        exact .inr (.inr ⟨_, rfl, Table.holds_iff.1 typed⟩)
      | _ => cases hstands
  · rintro ⟨⟨j, hversion, hone⟩, ⟨episode, hepisode⟩, ⟨node, hnode⟩, hresources⟩
    obtain ⟨version, hread⟩ := Version.exists_ofJson?_iff.2 hone
    obtain ⟨resources, hstands, typed⟩ : ∃ resources : Resources,
        resourcesOf (Table.lookup "resources" members) = resources.toJson ∧
          resources.Typed := by
      obtain hnone | hnull | ⟨held, hheld, hvalues⟩ := hresources
      · exact ⟨Table.empty, by rw [hnone]; rfl, fun _ _ h => by cases h⟩
      · exact ⟨Table.empty, by rw [hnull]; rfl, fun _ _ h => by cases h⟩
      · obtain ⟨hobject, htyped⟩ := resources_ofList (formed.lookup hheld)
        exact ⟨_, by rw [hheld, hobject]; rfl, htyped.2 hvalues⟩
    exact ⟨⟨episode, node, resources, version⟩, (ofJson_ok_iff formed).2
      ⟨⟨j, hversion, hread⟩, hepisode, hnode, hstands, typed⟩⟩

/-- As JSON a record is the object it is read from, cut down to the members that count. -/
theorem toJson_of_ofJson (formed : (Json.object members).WellFormed)
    (h : ofJson (.object members) = .ok record) : record.toJson = .object (counted members) := by
  obtain ⟨⟨j, hversion, hone⟩, hepisode, hnode, hstands, -⟩ := (ofJson_ok_iff formed).1 h
  have hkept := Version.toJson_of_ofJson? hone
  simp [counted, countedNames, hversion, hepisode, hnode, hstands, toJson, payload, hkept]

/-- Only the members that count are looked at. -/
theorem ofJson_congr {others : List (String × Json)}
    (formed : (Json.object members).WellFormed) (formed' : (Json.object others).WellFormed)
    (agree : ∀ name ∈ countedNames, Table.lookup name members = Table.lookup name others) :
    ofJson (.object members) = ofJson (.object others) := by
  have hagree : ∀ name ∈ countedNames,
      (Table.ofList members).find? name = (Table.ofList others).find? name := by
    intro name hname
    rw [Table.find?_ofList formed.distinct, Table.find?_ofList formed'.distinct, agree name hname]
  simp only [countedNames, List.forall_mem_cons] at hagree
  obtain ⟨hepisode, hnode, hresources, hversion, -⟩ := hagree
  simp only [ofJson, versionField, stringField, resourcesField, ofString_string, hepisode, hnode,
    hresources, hversion]

end Record

/-- Reading is exact.  A JSON value is a record just if it is an object whose members make one,
and any other is refused for what it is.  The record holds the members that count as they were,
whatever members stand beside them, and a record that is written as JSON is read back. -/
theorem payload_exact :
    (∀ text j, Json.read text = .ok j →
      ((∃ record, Record.ofJson j = .ok record) ↔
        ∃ members, j = .object members ∧ IsPayload members) ∧
      (∀ fault, Record.ofJson j = .error fault → ∃ why, fault = .record why) ∧
      ∀ members record, j = .object members → Record.ofJson j = .ok record →
        record.toJson = .object (counted members)) ∧
    (∀ text text' members others, Json.read text = .ok (.object members) →
      Json.read text' = .ok (.object others) →
      (∀ name ∈ countedNames, Table.lookup name members = Table.lookup name others) →
        Record.ofJson (.object members) = Record.ofJson (.object others)) ∧
    ∀ record : Record, record.resources.Typed → Record.ofJson record.toJson = .ok record := by
  refine ⟨fun text j hread => ⟨?_, ?_, ?_⟩, ?_, fun record => Record.ofJson_toJson⟩
  · constructor
    · rintro ⟨record, h⟩
      cases j with
      | object members =>
        have formed := Json.wellFormed_read_string hread
        exact ⟨members, rfl, (Record.exists_ofJson_iff formed).1 ⟨_, h⟩⟩
      | _ => cases h
    · rintro ⟨members, rfl, payload⟩
      exact (Record.exists_ofJson_iff (Json.wellFormed_read_string hread)).2 payload
  · intro fault h
    cases fault with
    | record why => exact ⟨why, rfl⟩
    | number fault => exact absurd h (Record.ofJson_ne_number (Json.writable_read hread))
  · rintro members record rfl h
    exact Record.toJson_of_ofJson (Json.wellFormed_read_string hread) h
  · intro text text' members others hread hread' agree
    exact Record.ofJson_congr (Json.wellFormed_read_string hread)
      (Json.wellFormed_read_string hread') agree

/-- A version that is a truth value, an id that is empty, resources that are null and a member
that nothing is known of make a record; without the version they are refused. -/
theorem true_counts_as_version :
    let text := "\x7b\"version\": true, \"mood\": [], \"nodeId\": \"gate\", " ++
      "\"resources\": null, \"episodeId\": \"\"\x7d"
    let bare := "\x7b\"nodeId\": \"gate\", \"resources\": null, \"episodeId\": \"\"\x7d"
    let rest : List (String × Json) :=
      [("nodeId", .string "gate"), ("resources", .null), ("episodeId", .string "")]
    let members := ("version", .bool true) :: ("mood", .array []) :: rest
    let record : Record := ⟨"", "gate", Table.empty, .truth⟩
    Json.read text = .ok (.object members) ∧ Json.read bare = .ok (.object rest) ∧
      Record.ofJson (.object members) = .ok record ∧ IsPayload members ∧ ¬IsPayload rest ∧
      record.toJson = .object (counted members) ∧
      Record.ofJson (.object members) = Record.ofJson (.object (counted members)) ∧
      Record.ofJson (.object rest) = .error (.record (.version "None")) := by
  intro text bare rest members record
  have hread : Json.read text = .ok (.object members) := by decide +kernel
  have hbare : Json.read bare = .ok (.object rest) := by decide +kernel
  have hrecord : Record.ofJson (.object members) = .ok record := by decide +kernel
  have hrefused : Record.ofJson (.object rest) = .error (.record (.version "None")) := by
    decide +kernel
  obtain ⟨reading, -, back⟩ := payload_exact
  obtain ⟨hexact, -, hkept⟩ := reading text _ hread
  obtain ⟨hexact', -, -⟩ := reading bare _ hbare
  have payload : IsPayload members := by
    obtain ⟨_, heq, payload⟩ := hexact.1 ⟨record, hrecord⟩
    rwa [Json.object.inj heq]
  have missing : ¬IsPayload rest := by
    intro payload
    obtain ⟨_, h⟩ := hexact'.2 ⟨rest, rfl, payload⟩
    rw [hrefused] at h
    cases h
  have kept := hkept members record rfl hrecord
  have again := back record fun _ _ h => by cases h
  rw [kept] at again
  exact ⟨hread, hbare, hrecord, payload, missing, kept, hrecord.trans again.symm, hrefused⟩

end Save

end Storyline
