import Storyline.Proofs.Act
import Storyline.Proofs.Episode.Grammar

/-!
# Storyline.Proofs.Episode.Document

Reading a document.  Each reader answers what is told and nothing else, so the documents that
are accepted are those that follow the grammar.  A defect lies where the reader looks: the
first node that does not follow the grammar is the one that is blamed.
-/

namespace Storyline.Episode

/-! ## Fields -/

theorem stringAt_ok_iff {place : Place} {found : Option Json} {s : String} :
    stringAt place found = .ok s ↔ found = some (.string s) := by
  rw [stringAt.eq_def]
  split <;> simp_all

theorem stringIfAnyAt_ok_iff {place : Place} {found : Option Json} {told : Option String} :
    stringIfAnyAt place found = .ok told ↔ IfAny TellsString found told := by
  constructor
  · intro h
    rw [stringIfAnyAt.eq_def] at h
    split at h
    · cases h; exact .filled rfl
    · cases h; exact .missing
    · cases h; exact .null
    · cases h
  · rintro (- | - | htold)
    · rfl
    · rfl
    · rw [htold]; rfl

theorem objectAt_ok_iff {place : Place} {found : Option Json} {t : Table Json} :
    objectAt place found = .ok t ↔ ∃ j, found = some j ∧ Fielded (fun fields => fields = t) j := by
  constructor
  · intro h
    rw [objectAt.eq_def] at h
    split at h
    · exact ⟨_, rfl, _, rfl, Except.ok.inj h⟩
    · cases h
  · rintro ⟨j, rfl, members, rfl, rfl⟩
    rfl

section Object

variable {α : Type} {place : Place} {read : Table Json → Except Defect α} {a : α}
  {P : Table Json → Prop} (h : ∀ fields, read fields = .ok a ↔ P fields)

include h

/-- What is read from the fields of an object that is found. -/
theorem object_ok_iff {found : Option Json} :
    objectAt place found >>= read = .ok a ↔ ∃ j, found = some j ∧ Fielded P j := by
  rw [bind_ok_iff]
  simp only [objectAt_ok_iff, h]
  constructor
  · rintro ⟨_, ⟨j, hj, members, hmembers, rfl⟩, hread⟩
    exact ⟨j, hj, members, hmembers, hread⟩
  · rintro ⟨j, hj, members, hmembers, hread⟩
    exact ⟨_, ⟨j, hj, members, hmembers, rfl⟩, hread⟩

theorem object_some_ok_iff {j : Json} :
    objectAt place (some j) >>= read = .ok a ↔ Fielded P j := by
  rw [object_ok_iff h]
  simp

end Object

theorem readEntries_ok_iff {α : Type} {read : String → Json → Except Defect α}
    {l : List (String × Json)} {l' : List (String × α)} :
    readEntries read l = .ok l' ↔
      List.Forall₂ (fun e f => e.1 = f.1 ∧ read e.1 e.2 = .ok f.2) l l' := by
  induction l generalizing l' with
  | nil =>
    rw [readEntries, List.forall₂_nil_left_iff, Except.ok.injEq]
    exact eq_comm
  | cons e rest ih =>
    rw [List.forall₂_cons_left_iff]
    constructor
    · intro h
      obtain ⟨a, ha, h⟩ := bind_ok_iff.1 h
      obtain ⟨others, hothers, h⟩ := bind_ok_iff.1 h
      cases h
      exact ⟨(e.1, a), others, ⟨rfl, ha⟩, ih.1 hothers, rfl⟩
    · rintro ⟨⟨name, a⟩, others, ⟨rfl, ha⟩, hothers, rfl⟩
      exact bind_ok_iff.2 ⟨a, ha, bind_ok_iff.2 ⟨others, ih.2 hothers, rfl⟩⟩

/-- A table is read entry by entry, and keeps its names and their order. -/
theorem readTable_ok_iff {α : Type} {read : String → Json → Except Defect α} {s : Table Json}
    {t : Table α} :
    readTable read s = .ok t ↔ s.Along (fun name j a => read name j = .ok a) t := by
  rw [readTable, map_ok_iff, Table.Along]
  simp only [readEntries_ok_iff]
  constructor
  · rintro ⟨l, h, rfl⟩
    have distinct : (l.map Prod.fst).Nodup := by
      rw [Table.names_of_forall₂ (R := fun name j a => read name j = .ok a) h]
      exact s.nodup_names
    rw [Table.entries_ofList distinct]
    exact h
  · intro h
    exact ⟨t.entries, h, Table.ext_entries (Table.entries_ofList t.nodup_names)⟩

theorem readTable_along_iff {α : Type} {read : String → Json → Except Defect α}
    {R : Json → α → Prop} (h : ∀ name j a, read name j = .ok a ↔ R j a) {s : Table Json}
    {t : Table α} : readTable read s = .ok t ↔ s.Along (fun _ => R) t := by
  rw [readTable_ok_iff]
  simp only [h]

theorem amountsAt_ok_iff {place : Place} {found : Option Json} {told : Option (Table Amount)} :
    amountsAt place found = .ok told ↔ IfAny TellsAmounts found told := by
  rw [amountsAt.eq_def]
  split
  · constructor
    · intro h
      cases h
      exact .missing
    · rintro ⟨⟩
      rfl
  · constructor
    · intro h
      cases h
      exact .null
    · rintro (- | - | ⟨members, hnull, -⟩)
      · rfl
      · cases hnull
  · next members =>
    rw [map_ok_iff]
    constructor
    · rintro ⟨t, h, rfl⟩
      exact .filled ⟨members, rfl, (readTable_along_iff fun _ j _ => by cases j <;> simp).1 h⟩
    · rintro (- | - | ⟨_, hmembers, h⟩)
      cases hmembers
      exact ⟨_, (readTable_along_iff fun _ j _ => by cases j <;> simp).2 h, rfl⟩
  · next hnone hnull hobject =>
    constructor
    · nofun
    · rintro (- | - | ⟨members, rfl, -⟩)
      · exact absurd rfl hnone
      · exact absurd rfl hnull
      · exact absurd rfl (hobject members)

theorem valuesAt_ok_iff {place : Place} {found : Option Json} {told : Table Value} :
    valuesAt place found = .ok told ↔ ∃ j, found = some j ∧ TellsValues j told :=
  object_ok_iff fun _ => readTable_along_iff fun _ j v => by
    cases j <;> cases v <;> simp [Value.ofJson?, Value.toJson]

theorem nextField_ok_iff {place : Place} {fields : Table Json} {next : String} :
    nextField place fields = .ok next ↔ TellsOr "" (fields.find? "next") next := by
  simp only [nextField, stringFieldIfAny, map_ok_iff, stringIfAnyAt_ok_iff, TellsOr]

/-! ## Nodes -/

/-- The id of an option: its own, or its index. -/
def optionId (place : Place) (index : Nat) : Option Json → Except Defect String
  | none => .ok (Nat.repr index)
  | found => stringAt (.field place "id") found

/-- An option of an id, from the other fields. -/
def optionOfId (place : Place) (fields : Table Json) (id : String) :
    Except Defect ChoiceOption := do
  let label ← stringField place fields "label"
  let next ← nextField place fields
  let gain ← amountsField place fields "gain"
  let requirement ← amountsField place fields "req"
  let remark ← stringFieldIfAny place fields "meta"
  return { id, label, next, gain, requirement, remark }

/-- An option is read from its id on. -/
theorem readOption_eq (episode node : String) (index : Nat) (j : Json) :
    readOption episode node index j =
      objectAt (.option episode node index) (some j) >>= fun fields =>
        optionId (.option episode node index) index (fields.find? "id") >>=
          optionOfId (.option episode node index) fields := by
  rw [readOption]
  congr 1
  funext fields
  cases fields.find? "id" <;> rfl

theorem optionId_ok_iff {place : Place} {index : Nat} {found : Option Json} {id : String} :
    optionId place index found = .ok id ↔ TellsId (some (Nat.repr index)) found id := by
  cases found with
  | none => simp [optionId, TellsId]
  | some j => simp [optionId, TellsId, stringAt_ok_iff]

theorem optionOfId_ok_iff {place : Place} {fields : Table Json} {id : String}
    {option : ChoiceOption} :
    optionOfId place fields id = .ok option ↔ option.id = id ∧
      fields.find? "label" = some (.string option.label) ∧
      TellsOr "" (fields.find? "next") option.next ∧
      IfAny TellsAmounts (fields.find? "gain") option.gain ∧
      IfAny TellsAmounts (fields.find? "req") option.requirement ∧
      IfAny TellsString (fields.find? "meta") option.remark := by
  simp only [optionOfId, bind_ok_iff, stringField, stringFieldIfAny, amountsField,
    stringAt_ok_iff, stringIfAnyAt_ok_iff, amountsAt_ok_iff, nextField_ok_iff]
  constructor
  · rintro ⟨label, hlabel, next, hnext, gain, hgain, requirement, hreq, remark, hmeta, h⟩
    cases h
    exact ⟨rfl, hlabel, hnext, hgain, hreq, hmeta⟩
  · rintro ⟨rfl, hlabel, hnext, hgain, hreq, hmeta⟩
    exact ⟨_, hlabel, _, hnext, _, hgain, _, hreq, _, hmeta, rfl⟩

theorem readOption_ok_iff {episode node : String} {index : Nat} {j : Json} {option : ChoiceOption} :
    readOption episode node index j = .ok option ↔
      Fielded (fun fields => TellsOption index fields option) j := by
  rw [readOption_eq]
  refine object_some_ok_iff fun fields => ?_
  simp only [bind_ok_iff, optionId_ok_iff, optionOfId_ok_iff]
  constructor
  · rintro ⟨id, hid, rfl, hlabel, hnext, hgain, hreq, hmeta⟩
    exact ⟨hid, hlabel, hnext, hgain, hreq, hmeta⟩
  · rintro ⟨hid, hlabel, hnext, hgain, hreq, hmeta⟩
    exact ⟨option.id, hid, rfl, hlabel, hnext, hgain, hreq, hmeta⟩

theorem readOptions_ok_iff {episode node : String} {index : Nat} {items : List Json}
    {options : List ChoiceOption} :
    readOptions episode node index items = .ok options ↔ TellsOptions index items options := by
  rw [TellsOptions]
  induction items generalizing index options with
  | nil =>
    rw [readOptions, List.zipIdx_nil, List.forall₂_nil_left_iff, Except.ok.injEq]
    exact eq_comm
  | cons j rest ih =>
    simp only [readOptions, bind_ok_iff, readOption_ok_iff, ih, List.zipIdx_cons,
      List.forall₂_cons_left_iff]
    constructor
    · rintro ⟨option, hoption, others, hothers, h⟩
      cases h
      exact ⟨option, others, hoption, hothers, rfl⟩
    · rintro ⟨option, others, hoption, hothers, rfl⟩
      exact ⟨option, hoption, others, hothers, rfl⟩

/-- A node of a kind is read as what its fields tell. -/
theorem tellsNode_of_readNode {episode id kind : String} {fields : Table Json} {node : Node}
    (h : readNode episode id kind fields = .ok node) : TellsNode fields kind node := by
  rw [readNode.eq_def] at h
  dsimp only at h
  split at h
  · obtain ⟨image, hbg, h⟩ := bind_ok_iff.1 h
    obtain ⟨next, hnext, h⟩ := bind_ok_iff.1 h
    cases h
    exact .background (stringAt_ok_iff.1 hbg) (nextField_ok_iff.1 hnext)
  · obtain ⟨track, hmusic, h⟩ := bind_ok_iff.1 h
    obtain ⟨next, hnext, h⟩ := bind_ok_iff.1 h
    cases h
    exact .music (stringAt_ok_iff.1 hmusic) (nextField_ok_iff.1 hnext)
  · obtain ⟨speaker, hwho, h⟩ := bind_ok_iff.1 h
    obtain ⟨line, htext, h⟩ := bind_ok_iff.1 h
    obtain ⟨next, hnext, h⟩ := bind_ok_iff.1 h
    cases h
    exact .say (stringAt_ok_iff.1 hwho) (stringAt_ok_iff.1 htext) (nextField_ok_iff.1 hnext)
  · obtain ⟨assignments, hvars, h⟩ := bind_ok_iff.1 h
    obtain ⟨next, hnext, h⟩ := bind_ok_iff.1 h
    cases h
    obtain ⟨j, hvars, tells⟩ := valuesAt_ok_iff.1 hvars
    exact .assign hvars tells (nextField_ok_iff.1 hnext)
  · obtain ⟨position, hpos, h⟩ := bind_ok_iff.1 h
    obtain ⟨who, hwho, h⟩ := bind_ok_iff.1 h
    obtain ⟨image, hsprite, h⟩ := bind_ok_iff.1 h
    obtain ⟨next, hnext, h⟩ := bind_ok_iff.1 h
    cases h
    exact .sprite (stringIfAnyAt_ok_iff.1 hpos) (stringAt_ok_iff.1 hwho)
      (stringAt_ok_iff.1 hsprite) (nextField_ok_iff.1 hnext)
  · split at h
    · next items hoptions =>
      obtain ⟨options, htells, h⟩ := bind_ok_iff.1 h
      obtain ⟨prompt, htext, h⟩ := bind_ok_iff.1 h
      cases h
      exact .choice hoptions (readOptions_ok_iff.1 htells)
        ⟨prompt, stringIfAnyAt_ok_iff.1 htext, rfl⟩
    · cases h
  · obtain ⟨requirement, hreq, h⟩ := bind_ok_iff.1 h
    obtain ⟨onPass, hpass, h⟩ := bind_ok_iff.1 h
    obtain ⟨onFail, hfail, h⟩ := bind_ok_iff.1 h
    cases h
    exact .check (amountsAt_ok_iff.1 hreq) (stringAt_ok_iff.1 hpass) (stringAt_ok_iff.1 hfail)
  · obtain ⟨effect, hsfx, h⟩ := bind_ok_iff.1 h
    obtain ⟨next, hnext, h⟩ := bind_ok_iff.1 h
    cases h
    exact .sound (stringAt_ok_iff.1 hsfx) (nextField_ok_iff.1 hnext)
  · obtain ⟨game, hid, h⟩ := bind_ok_iff.1 h
    obtain ⟨rules, hrules, h⟩ := bind_ok_iff.1 h
    obtain ⟨onWin, hwin, h⟩ := bind_ok_iff.1 h
    obtain ⟨onLose, hlose, h⟩ := bind_ok_iff.1 h
    cases h
    exact .minigame (stringAt_ok_iff.1 hid) ⟨rules, stringIfAnyAt_ok_iff.1 hrules, rfl⟩
      (stringAt_ok_iff.1 hwin) (stringAt_ok_iff.1 hlose)
  · obtain ⟨target, hto, h⟩ := bind_ok_iff.1 h
    cases h
    exact .jump (stringAt_ok_iff.1 hto)
  · split at h
    · next hsave =>
      obtain ⟨summary, hsummary, h⟩ := bind_ok_iff.1 h
      cases h
      exact .ending (hsave ▸ .missing) (stringIfAnyAt_ok_iff.1 hsummary)
    · next hsave =>
      obtain ⟨summary, hsummary, h⟩ := bind_ok_iff.1 h
      cases h
      exact .ending (hsave ▸ .null) (stringIfAnyAt_ok_iff.1 hsummary)
    · next save hsave =>
      obtain ⟨summary, hsummary, h⟩ := bind_ok_iff.1 h
      cases h
      exact .ending (hsave ▸ .filled rfl) (stringIfAnyAt_ok_iff.1 hsummary)
    · cases h
  · cases h
    exact .unknown (by simp_all [kinds])

theorem readNode_of_tellsNode {episode id kind : String} {fields : Table Json} {node : Node}
    (h : TellsNode fields kind node) : readNode episode id kind fields = .ok node := by
  cases h with
  | background hbg hnext =>
    exact bind_ok_iff.2 ⟨_, stringAt_ok_iff.2 hbg,
      bind_ok_iff.2 ⟨_, nextField_ok_iff.2 hnext, rfl⟩⟩
  | music hmusic hnext =>
    exact bind_ok_iff.2 ⟨_, stringAt_ok_iff.2 hmusic,
      bind_ok_iff.2 ⟨_, nextField_ok_iff.2 hnext, rfl⟩⟩
  | say hwho htext hnext =>
    exact bind_ok_iff.2 ⟨_, stringAt_ok_iff.2 hwho, bind_ok_iff.2 ⟨_, stringAt_ok_iff.2 htext,
      bind_ok_iff.2 ⟨_, nextField_ok_iff.2 hnext, rfl⟩⟩⟩
  | assign hvars tells hnext =>
    exact bind_ok_iff.2 ⟨_, valuesAt_ok_iff.2 ⟨_, hvars, tells⟩,
      bind_ok_iff.2 ⟨_, nextField_ok_iff.2 hnext, rfl⟩⟩
  | sprite hpos hwho hsprite hnext =>
    exact bind_ok_iff.2 ⟨_, stringIfAnyAt_ok_iff.2 hpos,
      bind_ok_iff.2 ⟨_, stringAt_ok_iff.2 hwho, bind_ok_iff.2 ⟨_, stringAt_ok_iff.2 hsprite,
        bind_ok_iff.2 ⟨_, nextField_ok_iff.2 hnext, rfl⟩⟩⟩⟩
  | choice hoptions tells htext =>
    obtain ⟨prompt, htext, rfl⟩ := htext
    simp only [readNode, hoptions]
    exact bind_ok_iff.2 ⟨_, readOptions_ok_iff.2 tells,
      bind_ok_iff.2 ⟨_, stringIfAnyAt_ok_iff.2 htext, rfl⟩⟩
  | check hreq hpass hfail =>
    exact bind_ok_iff.2 ⟨_, amountsAt_ok_iff.2 hreq, bind_ok_iff.2 ⟨_, stringAt_ok_iff.2 hpass,
      bind_ok_iff.2 ⟨_, stringAt_ok_iff.2 hfail, rfl⟩⟩⟩
  | sound hsfx hnext =>
    exact bind_ok_iff.2 ⟨_, stringAt_ok_iff.2 hsfx,
      bind_ok_iff.2 ⟨_, nextField_ok_iff.2 hnext, rfl⟩⟩
  | minigame hid hrules hwin hlose =>
    obtain ⟨rules, hrules, rfl⟩ := hrules
    exact bind_ok_iff.2 ⟨_, stringAt_ok_iff.2 hid,
      bind_ok_iff.2 ⟨_, stringIfAnyAt_ok_iff.2 hrules, bind_ok_iff.2 ⟨_, stringAt_ok_iff.2 hwin,
        bind_ok_iff.2 ⟨_, stringAt_ok_iff.2 hlose, rfl⟩⟩⟩⟩
  | jump hto => exact bind_ok_iff.2 ⟨_, stringAt_ok_iff.2 hto, rfl⟩
  | ending hsave hsummary =>
    generalize hfound : fields.find? "save" = found at hsave
    simp only [readNode, hfound]
    rcases hsave with - | - | rfl
    all_goals exact bind_ok_iff.2 ⟨_, stringIfAnyAt_ok_iff.2 hsummary, rfl⟩
  | unknown hkind =>
    rw [readNode.eq_def]
    dsimp only
    split
    iterate 11 exact absurd (by decide) hkind
    rfl

theorem readNode_ok_iff {episode id kind : String} {fields : Table Json} {node : Node} :
    readNode episode id kind fields = .ok node ↔ TellsNode fields kind node :=
  ⟨tellsNode_of_readNode, readNode_of_tellsNode⟩

theorem readNodeAt_ok_iff {episode id : String} {j : Json} {node : Node} :
    readNodeAt episode id j = .ok node ↔ TellsNodeOf j node := by
  rw [readNodeAt]
  refine object_some_ok_iff fun fields => ?_
  simp only [bind_ok_iff, stringField, stringAt_ok_iff, readNode_ok_iff]

theorem readNodes_ok_iff {episode : String} {t : Table Json} {nodes : Table Node} :
    readTable (readNodeAt episode) t = .ok nodes ↔ t.Along (fun _ => TellsNodeOf) nodes :=
  readTable_along_iff (R := TellsNodeOf) fun _ _ _ => readNodeAt_ok_iff

/-! ## Episodes -/

theorem readId_ok_iff {default : Option String} {fields : Table Json} {id : String} :
    readId fields default = .ok id ↔ TellsId default (fields.find? "episodeId") id := by
  rw [readId.eq_def]
  split
  · next hnone => cases default <;> simp [TellsId, hnone]
  · next hsome => simp_all [TellsId, stringAt_ok_iff]

/-- What a document says before its nodes are read. -/
structure Header where
  id : String
  title : Option String
  start : String
  nodes : Table Json

/-- Reads a document as far as its nodes. -/
def readHeader (default : Option String) (j : Json) : Except Defect Header := do
  let fields ← objectAt .document (some j)
  let id ← readId fields default
  let title ← stringFieldIfAny (.episode id) fields "title"
  let start ← stringField (.episode id) fields "start"
  let nodes ← objectAt (.field (.episode id) "nodes") (fields.find? "nodes")
  return { id, title, start, nodes }

/-- The episode of a header and its nodes. -/
def Header.episode (header : Header) (nodes : Table Node) : Episode where
  id := header.id
  title := (header.title.filter fun t => t ≠ "").getD header.id
  start := header.start
  nodes := nodes

/-- The nodes are read once the rest is. -/
theorem ofJson_eq (default : Option String) (j : Json) :
    ofJson default j = readHeader default j >>= fun header =>
      (readTable (readNodeAt header.id) header.nodes).map header.episode := by
  simp only [ofJson, readHeader, bind_assoc, pure_bind]
  refine bind_congr fun fields => bind_congr fun id => bind_congr fun title =>
    bind_congr fun start => bind_congr fun found => ?_
  cases readTable (readNodeAt id) found with
  | error d => rfl
  | ok nodes =>
    cases title with
    | none => rfl
    | some title =>
      by_cases ht : title = ""
      · subst ht
        rfl
      · simp [Header.episode, Option.filter, ht, bind, Except.bind, pure, Except.pure, Except.map]

/-- What the fields of a document tell before its nodes are read. -/
structure TellsHeader (default : Option String) (fields : Table Json) (header : Header) : Prop where
  id : TellsId default (fields.find? "episodeId") header.id
  title : IfAny TellsString (fields.find? "title") header.title
  start : fields.find? "start" = some (.string header.start)
  nodes : ∃ j, fields.find? "nodes" = some j ∧ Fielded (fun nodes => nodes = header.nodes) j

theorem readHeader_ok_iff {default : Option String} {j : Json} {header : Header} :
    readHeader default j = .ok header ↔
      Fielded (fun fields => TellsHeader default fields header) j := by
  rw [readHeader]
  refine object_some_ok_iff fun fields => ?_
  simp only [bind_ok_iff, stringField, stringFieldIfAny, readId_ok_iff, stringIfAnyAt_ok_iff,
    stringAt_ok_iff]
  constructor
  · rintro ⟨id, hid, title, htitle, start, hstart, nodes, hnodes, h⟩
    cases h
    exact ⟨hid, htitle, hstart, objectAt_ok_iff.1 hnodes⟩
  · rintro ⟨hid, htitle, hstart, hnodes⟩
    exact ⟨_, hid, _, htitle, _, hstart, _, objectAt_ok_iff.2 hnodes, rfl⟩

/-- A document is read as the episode that it tells. -/
theorem ofJson_ok_iff {default : Option String} {j : Json} {e : Episode} :
    ofJson default j = .ok e ↔ Tells default j e := by
  simp only [ofJson_eq, bind_ok_iff, map_ok_iff, readHeader_ok_iff, readNodes_ok_iff]
  constructor
  · rintro ⟨header, ⟨members, rfl, h⟩, nodes, hnodes, rfl⟩
    obtain ⟨j, hj, found, rfl, hfound⟩ := h.nodes
    exact ⟨members, rfl, h.id, ⟨_, h.title, rfl⟩, h.start, _, hj, found, rfl, hfound ▸ hnodes⟩
  · rintro ⟨members, rfl, hid, ⟨title, htitle, hequal⟩, hstart, j, hj, found, rfl, hnodes⟩
    refine ⟨⟨e.id, title, e.start, Table.ofList found⟩, ⟨members, rfl, hid, htitle, hstart, _, hj,
      found, rfl, rfl⟩, e.nodes, hnodes, ?_⟩
    rw [Header.episode, ← hequal]

/-! ## Defects -/

/-- The node that a place lies in, by the id of the episode and its own. -/
def Place.node? : Place → Option (String × String)
  | .node e n | .option e n _ => some (e, n)
  | .field owner _ | .entry owner _ => owner.node?
  | .document | .episode _ => none

/-- A place in a node is named after the node. -/
theorem text_of_node? {place : Place} {episode id : String}
    (h : place.node? = some (episode, id)) :
    ∃ rest, place.text = (Place.node episode id).text ++ rest := by
  induction place with
  | document => cases h
  | episode e => cases h
  | node e n =>
    cases h
    exact ⟨"", String.append_empty.symm⟩
  | option e n index =>
    cases h
    have hquote : "' options[" = "'" ++ " options[" := rfl
    refine ⟨" options[" ++ Nat.repr index ++ "]", ?_⟩
    show "episode '" ++ episode ++ "' node '" ++ id ++ "' options[" ++ Nat.repr index ++ "]" =
      "episode '" ++ episode ++ "' node '" ++ id ++ "'" ++ (" options[" ++ Nat.repr index ++ "]")
    simp only [hquote, String.append_assoc]
  | field owner name ih =>
    obtain ⟨rest, hrest⟩ := ih h
    refine ⟨rest ++ " " ++ name, ?_⟩
    show owner.text ++ " " ++ name = _
    simp only [hrest, String.append_assoc]
  | entry owner name ih =>
    obtain ⟨rest, hrest⟩ := ih h
    refine ⟨rest ++ "." ++ name, ?_⟩
    show owner.text ++ "." ++ name = _
    simp only [hrest, String.append_assoc]

/-- A reader blames a spot, a node or none, if its defect lies there. -/
def Blames {α : Type} (spot : Option (String × String)) (answer : Except Defect α) : Prop :=
  ∀ d, answer = .error d → d.place.node? = spot

section Blames

variable {α β : Type} {spot : Option (String × String)} {place : Place}

theorem blames_ok (a : α) : Blames spot (.ok a) := nofun

theorem Blames.bind {answer : Except Defect α} {next : α → Except Defect β}
    (h : Blames spot answer) (hnext : ∀ a, Blames spot (next a)) :
    Blames spot (answer >>= next) := by
  intro d hd
  rcases bind_error_iff.1 hd with hd | ⟨a, -, hd⟩
  · exact h d hd
  · exact hnext a d hd

theorem Blames.map {answer : Except Defect α} (h : Blames spot answer) (f : α → β) :
    Blames spot (answer.map f) := by
  cases answer with
  | ok a => exact blames_ok _
  | error d =>
    intro d' hd
    cases hd
    exact h d rfl

theorem blames_readTable {read : String → Json → Except Defect α}
    (h : ∀ name j, Blames spot (read name j)) (t : Table Json) :
    Blames spot (readTable read t) := by
  refine .map ?_ _
  induction t.entries with
  | nil => exact blames_ok _
  | cons e rest ih => exact .bind (h e.1 e.2) fun _ => .bind ih fun _ => blames_ok _

theorem blames_error (place : Place) (demand : Demand) (hplace : place.node? = spot) :
    Blames spot (.error ⟨place, demand⟩ : Except Defect α) := by
  intro d h
  cases h
  exact hplace

section Field

variable (hplace : place.node? = spot)

include hplace

theorem blames_stringAt (found : Option Json) : Blames spot (stringAt place found) := by
  rw [stringAt.eq_def]
  split
  · exact blames_ok _
  · exact blames_error _ _ hplace

theorem blames_stringIfAnyAt (found : Option Json) : Blames spot (stringIfAnyAt place found) := by
  rw [stringIfAnyAt.eq_def]
  split
  · exact blames_ok _
  · exact blames_ok _
  · exact blames_ok _
  · exact blames_error _ _ hplace

theorem blames_objectAt (found : Option Json) : Blames spot (objectAt place found) := by
  rw [objectAt.eq_def]
  split
  · exact blames_ok _
  · exact blames_error _ _ hplace

theorem blames_amountsAt (found : Option Json) : Blames spot (amountsAt place found) := by
  rw [amountsAt.eq_def]
  split
  · exact blames_ok _
  · exact blames_ok _
  · refine .map (blames_readTable (fun name j => ?_) _) _
    split
    · exact blames_ok _
    · exact blames_error _ _ hplace
  · exact blames_error _ _ hplace

theorem blames_valuesAt (found : Option Json) : Blames spot (valuesAt place found) := by
  refine .bind (blames_objectAt hplace found) fun t => blames_readTable (fun name j => ?_) t
  split
  · exact blames_ok _
  · exact blames_error _ _ hplace

end Field

theorem blames_nextField (hplace : place.node? = spot) (fields : Table Json) :
    Blames spot (nextField place fields) :=
  .map (blames_stringIfAnyAt (show (place.field "next").node? = spot from hplace) _) _

end Blames

/-- An option that is not read is a defect of its node. -/
theorem blames_readOption (episode node : String) (index : Nat) (j : Json) :
    Blames (some (episode, node)) (readOption episode node index j) := by
  rw [readOption_eq]
  refine .bind (blames_objectAt rfl _) fun fields => .bind ?_ fun id => ?_
  · rw [optionId.eq_def]
    split
    · exact blames_ok _
    · exact blames_stringAt rfl _
  · exact .bind (blames_stringAt rfl _) fun label => .bind (blames_nextField rfl _) fun next =>
      .bind (blames_amountsAt rfl _) fun gain => .bind (blames_amountsAt rfl _) fun requirement =>
        .bind (blames_stringIfAnyAt rfl _) fun remark => blames_ok _

theorem blames_readOptions (episode node : String) (index : Nat) (items : List Json) :
    Blames (some (episode, node)) (readOptions episode node index items) := by
  induction items generalizing index with
  | nil => exact blames_ok _
  | cons j rest ih =>
    exact .bind (blames_readOption episode node index j) fun _ => .bind (ih _) fun _ => blames_ok _

/-- So is a node that is not read. -/
theorem blames_readNode (episode id kind : String) (fields : Table Json) :
    Blames (some (episode, id)) (readNode episode id kind fields) := by
  rw [readNode.eq_def]
  dsimp only
  split
  · exact .bind (blames_stringAt rfl _) fun _ => .bind (blames_nextField rfl _) fun _ => blames_ok _
  · exact .bind (blames_stringAt rfl _) fun _ => .bind (blames_nextField rfl _) fun _ => blames_ok _
  · exact .bind (blames_stringAt rfl _) fun _ => .bind (blames_stringAt rfl _) fun _ =>
      .bind (blames_nextField rfl _) fun _ => blames_ok _
  · exact .bind (blames_valuesAt rfl _) fun _ => .bind (blames_nextField rfl _) fun _ => blames_ok _
  · exact .bind (blames_stringIfAnyAt rfl _) fun _ => .bind (blames_stringAt rfl _) fun _ =>
      .bind (blames_stringAt rfl _) fun _ => .bind (blames_nextField rfl _) fun _ => blames_ok _
  · split
    · exact .bind (blames_readOptions episode id 0 _) fun _ =>
        .bind (blames_stringIfAnyAt rfl _) fun _ => blames_ok _
    · exact blames_error _ _ rfl
  · exact .bind (blames_amountsAt rfl _) fun _ => .bind (blames_stringAt rfl _) fun _ =>
      .bind (blames_stringAt rfl _) fun _ => blames_ok _
  · exact .bind (blames_stringAt rfl _) fun _ => .bind (blames_nextField rfl _) fun _ => blames_ok _
  · exact .bind (blames_stringAt rfl _) fun _ => .bind (blames_stringIfAnyAt rfl _) fun _ =>
      .bind (blames_stringAt rfl _) fun _ => .bind (blames_stringAt rfl _) fun _ => blames_ok _
  · exact .bind (blames_stringAt rfl _) fun _ => blames_ok _
  · split
    · exact .bind (blames_stringIfAnyAt rfl _) fun _ => blames_ok _
    · exact .bind (blames_stringIfAnyAt rfl _) fun _ => blames_ok _
    · exact .bind (blames_stringIfAnyAt rfl _) fun _ => blames_ok _
    · exact blames_error _ _ rfl
  · exact blames_ok _

theorem blames_readNodeAt (episode id : String) (j : Json) :
    Blames (some (episode, id)) (readNodeAt episode id j) :=
  .bind (blames_objectAt rfl _) fun _ => .bind (blames_stringAt rfl _) fun _ =>
    blames_readNode episode id _ _

/-! ## The first node to blame -/

/-- A document without a header has no node to blame. -/
theorem blames_readHeader (default : Option String) (j : Json) :
    Blames none (readHeader default j) := by
  refine .bind (blames_objectAt rfl _) fun fields => .bind ?_ fun id =>
    .bind (blames_stringIfAnyAt rfl _) fun _ => .bind (blames_stringAt rfl _) fun _ =>
      .bind (blames_objectAt rfl _) fun _ => blames_ok _
  rw [readId.eq_def]
  split
  · cases default with
    | none => exact blames_error _ _ rfl
    | some id => exact blames_ok _
  · exact blames_stringAt rfl _

theorem exists_header {default : Option String} {j : Json} :
    (∃ header, readHeader default j = .ok header) ↔ isHeaded default j = true := by
  simp only [readHeader_ok_iff]
  refine exists_fielded fun fields => ?_
  have exists_object : (∃ nodes : Table Json, ∃ j, fields.find? "nodes" = some j ∧
      Fielded (fun found => found = nodes) j) ↔
        Shape.table (fun _ => true) (fields.find? "nodes") = true :=
    exists_filled rfl fun j => by cases j <;> simp [Fielded, Shape.table]
  simp only [documentFields, Fields.fit, List.all_cons, List.all_nil, Bool.and_true,
    Bool.and_eq_true, ← exists_object, ← exists_string, ← exists_ifAny_string, ← exists_tellsId]
  constructor
  · rintro ⟨header, h⟩
    exact ⟨⟨_, h.id⟩, ⟨_, h.title⟩, ⟨_, h.start⟩, ⟨_, h.nodes⟩⟩
  · rintro ⟨⟨id, hid⟩, ⟨title, htitle⟩, ⟨start, hstart⟩, ⟨nodes, hnodes⟩⟩
    exact ⟨⟨id, title, start, nodes⟩, hid, htitle, hstart, hnodes⟩

/-- The first entry that is not read is the one that is blamed. -/
theorem exists_of_readEntries_error {α : Type} {read : String → Json → Except Defect α} {d : Defect}
    {l : List (String × Json)} (h : readEntries read l = .error d) :
    ∃ before name j after, l = before ++ (name, j) :: after ∧
      (∀ e ∈ before, ∃ a, read e.1 e.2 = .ok a) ∧ read name j = .error d := by
  induction l with
  | nil => cases h
  | cons e rest ih =>
    rcases bind_error_iff.1 h with h | ⟨a, ha, h⟩
    · exact ⟨[], e.1, e.2, rest, rfl, List.forall_mem_nil _, h⟩
    · rcases bind_error_iff.1 h with h | ⟨others, -, h⟩
      · obtain ⟨before, name, j, after, rfl, hbefore, hread⟩ := ih h
        exact ⟨e :: before, name, j, after, rfl, List.forall_mem_cons.2 ⟨⟨a, ha⟩, hbefore⟩, hread⟩
      · cases h

/-- The nodes of a document are entered in an order, and a node is the first that does not
follow the grammar. -/
def FirstBad (nodes : Table Json) (id : String) : Prop :=
  ∃ before j after, nodes.entries = before ++ (id, j) :: after ∧
    (∀ e ∈ before, isNode e.2 = true) ∧ isNode j = false

theorem firstBad_of_error {episode : String} {nodes : Table Json} {d : Defect}
    (h : readTable (readNodeAt episode) nodes = .error d) :
    ∃ id, FirstBad nodes id ∧ d.place.node? = some (episode, id) := by
  rw [readTable, map_error_iff] at h
  obtain ⟨before, id, j, after, hsplit, hbefore, hread⟩ := exists_of_readEntries_error h
  have hnode : ∀ id j, (∃ node, readNodeAt episode id j = .ok node) ↔ isNode j = true := by
    simp only [readNodeAt_ok_iff, exists_tellsNodeOf, implies_true]
  have hbad : isNode j = false := by
    rw [← Bool.not_eq_true, ← hnode id j, hread]
    rintro ⟨node, h⟩
    cases h
  exact ⟨id, ⟨before, j, after, hsplit, fun e he => (hnode e.1 e.2).1 (hbefore e he), hbad⟩,
    blames_readNodeAt episode id j d hread⟩

/-- A document is accepted just if it follows the grammar, and it is then read as the episode
that it tells.  Where it is refused, either it does not follow the grammar as far as its nodes
and no node is blamed, or it does, and the one that is blamed and named is the first of its
nodes that does not. -/
theorem ofJson_follows_grammar (default : Option String) (j : Json) :
    ((∃ e, ofJson default j = .ok e) ↔ isDocument default j = true) ∧
    (∀ e, ofJson default j = .ok e ↔ Tells default j e) ∧
    ∀ d, ofJson default j = .error d →
      (isHeaded default j = false ∧ d.place.node? = none) ∨
      isHeaded default j = true ∧ Fielded (fun fields => ∃ episode nodes id,
        TellsId default (fields.find? "episodeId") episode ∧
        fields.find? "nodes" = some (.object nodes) ∧ FirstBad (Table.ofList nodes) id ∧
        d.place.node? = some (episode, id) ∧
        ∃ rest, d.message = (Place.node episode id).text ++ rest) j := by
  refine ⟨?_, fun e => ofJson_ok_iff, fun d h => ?_⟩
  · simp only [ofJson_ok_iff, exists_tells]
  · rw [ofJson_eq] at h
    rcases bind_error_iff.1 h with h | ⟨header, hheader, h⟩
    · refine .inl ⟨?_, blames_readHeader default j d h⟩
      rw [← Bool.not_eq_true, ← exists_header, h]
      rintro ⟨header, hheader⟩
      cases hheader
    · obtain ⟨id, hfirst, hplace⟩ := firstBad_of_error (map_error_iff.1 h)
      obtain ⟨rest, hrest⟩ := text_of_node? hplace
      have hmessage : d.message =
          (Place.node header.id id).text ++ (rest ++ " must be " ++ d.demand.text ++ ".") := by
        simp only [Defect.message, hrest, String.append_assoc]
      refine .inr ⟨exists_header.1 ⟨header, hheader⟩, ?_⟩
      obtain ⟨members, rfl, tells⟩ := readHeader_ok_iff.1 hheader
      obtain ⟨j, hj, nodes, rfl, hnodes⟩ := tells.nodes
      exact ⟨members, rfl, header.id, nodes, id, tells.id, hj, hnodes ▸ hfirst, hplace, _,
        hmessage⟩

/-- A truth value is no number: the second node is refused, by name. -/
example :
    (ofJson (some "ep1") (.object [("start", .string "a"), ("nodes", .object [
      ("a", .object [("type", .string "jump"), ("to", .string "b")]),
      ("b", .object [("type", .string "set"),
        ("vars", .object [("runes", .bool true)])])])])).mapError Defect.message =
      .error "episode 'ep1' node 'b' vars.runes must be a string or number." := by
  decide +kernel

end Storyline.Episode
