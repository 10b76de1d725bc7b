import Mathlib.Data.List.Forall2
import Storyline.Episode.Document
import Storyline.Proofs.Resources

/-!
# Storyline.Proofs.Episode.Grammar

The grammar of episode documents as a table: for each kind of object its fields, and for each
field its shape.  Beside it stands what a document tells, that is which episode it is the
document of.  Neither says in which order a reader looks at the fields.

A field may be missing, null or filled, and the shapes differ in which of these they admit.
-/

namespace Storyline

/-- Two tables have the same names in the same order, and their values are related. -/
def Table.Along {α β : Type} (R : String → α → β → Prop) (s : Table α) (t : Table β) : Prop :=
  List.Forall₂ (fun e f => e.1 = f.1 ∧ R e.1 e.2 f.2) s.entries t.entries

theorem exists_forall₂_iff {α β : Type} {R : α → β → Prop} {l : List α} :
    (∃ l', List.Forall₂ R l l') ↔ ∀ a ∈ l, ∃ b, R a b := by
  induction l with
  | nil => exact ⟨fun _ => List.forall_mem_nil _, fun _ => ⟨[], .nil⟩⟩
  | cons a l ih =>
    rw [List.forall_mem_cons, ← ih]
    constructor
    · rintro ⟨_, h⟩
      obtain ⟨b, l', hb, hl', -⟩ := List.forall₂_cons_left_iff.1 h
      exact ⟨⟨b, hb⟩, l', hl'⟩
    · rintro ⟨⟨b, hb⟩, l', hl'⟩
      exact ⟨b :: l', .cons hb hl'⟩

namespace Table

variable {α β : Type} {R : String → α → β → Prop}

theorem names_of_forall₂ {l : List (String × α)} {l' : List (String × β)}
    (h : List.Forall₂ (fun e f => e.1 = f.1 ∧ R e.1 e.2 f.2) l l') :
    l'.map Prod.fst = l.map Prod.fst := by
  induction h with
  | nil => rfl
  | cons h _ ih => rw [List.map_cons, List.map_cons, ih, h.1]

/-- There is a table along another if there is a value for each of its values. -/
theorem exists_along_iff {s : Table α} :
    (∃ t, s.Along R t) ↔ ∀ e ∈ s.entries, ∃ b, R e.1 e.2 b := by
  have hvalues : (∀ e ∈ s.entries, ∃ b, R e.1 e.2 b) ↔
      ∀ e ∈ s.entries, ∃ f : String × β, e.1 = f.1 ∧ R e.1 e.2 f.2 := by
    refine forall₂_congr fun e _ => ⟨fun ⟨b, hb⟩ => ⟨(e.1, b), rfl, hb⟩, ?_⟩
    rintro ⟨f, -, hf⟩
    exact ⟨f.2, hf⟩
  rw [hvalues, ← exists_forall₂_iff]
  constructor
  · rintro ⟨t, h⟩
    exact ⟨t.entries, h⟩
  · rintro ⟨l, h⟩
    exact ⟨⟨l, names_of_forall₂ h ▸ s.nodup_names⟩, h⟩

end Table

namespace Episode

/-! ## Shapes -/

/-- Which fillings of a field are admitted; `none` is a missing field. -/
abbrev Shape := Option Json → Bool

/-- The fields of an object, each with its shape. -/
abbrev Fields := List (String × Shape)

namespace Shape

def string : Shape
  | some (.string _) => true
  | _ => false

def boolean : Shape
  | some (.bool _) => true
  | _ => false

/-- A list whose items are all of one form. -/
def list (each : Json → Bool) : Shape
  | some (.array items) => items.all each
  | _ => false

/-- An object whose values are all of one form, whatever their names. -/
def table (each : Json → Bool) : Shape
  | some (.object members) => (Table.ofList members).entries.all fun e => each e.2
  | _ => false

/-- A field that may be missing. -/
def ifGiven (shape : Shape) : Shape
  | none => true
  | found => shape found

/-- A field that may be missing or null. -/
def ifAny (shape : Shape) : Shape
  | none | some .null => true
  | found => shape found

/-- An object of numbers, truth values not among them. -/
def amounts : Shape := table fun j => j matches .number _

/-- An object of numbers and strings. -/
def values : Shape := table Json.isValue

end Shape

/-- Whether the fields that are found are admitted; more fields do no harm. -/
def Fields.fit (fields : Fields) (found : Table Json) : Bool :=
  fields.all fun field => field.2 (found.find? field.1)

/-- An object with such fields. -/
def isObjectOf (fields : Fields) : Json → Bool
  | .object members => fields.fit (Table.ofList members)
  | _ => false

/-! ## The grammar -/

open Shape

/-- The fields of an option. -/
def optionFields : Fields := [
  ("id", ifGiven string), ("label", string), ("next", ifAny string),
  ("gain", ifAny amounts), ("req", ifAny amounts), ("meta", ifAny string)]

/-- The kinds of nodes that something is known of. -/
def kinds : List String :=
  ["bg", "music", "say", "set", "sprite", "choice", "check", "sfx", "minigame", "jump", "end"]

/-- The fields of a kind. -/
def fieldsOf : String → Fields
  | "bg" => [("bg", string), ("next", ifAny string)]
  | "music" => [("music", string), ("next", ifAny string)]
  | "say" => [("who", string), ("text", string), ("next", ifAny string)]
  | "set" => [("vars", values), ("next", ifAny string)]
  | "sprite" =>
    [("pos", ifAny string), ("who", string), ("sprite", string), ("next", ifAny string)]
  | "choice" => [("options", list (isObjectOf optionFields)), ("text", ifAny string)]
  | "check" => [("req", ifAny amounts), ("onPass", string), ("onFail", string)]
  | "sfx" => [("sfx", string), ("next", ifAny string)]
  | "minigame" =>
    [("id", string), ("rules", ifAny string), ("onWin", string), ("onLose", string)]
  | "jump" => [("to", string)]
  | "end" => [("save", ifAny boolean), ("summary", ifAny string)]
  | _ => []

/-- A node: an object that says its kind and has the fields of that kind. -/
def isNode : Json → Bool
  | .object members =>
    match (Table.ofList members).find? "type" with
    | some (.string kind) => (fieldsOf kind).fit (Table.ofList members)
    | _ => false
  | _ => false

/-- The fields of a document; its id may be missing if there is a default one. -/
def documentFields (default : Option String) (node : Json → Bool) : Fields := [
  ("episodeId", if default.isSome then ifGiven string else string), ("title", ifAny string),
  ("start", string), ("nodes", table node)]

/-- The documents that follow the grammar. -/
def isDocument (default : Option String) (j : Json) : Bool :=
  isObjectOf (documentFields default isNode) j

/-- The documents that follow it as far as their nodes. -/
def isHeaded (default : Option String) (j : Json) : Bool :=
  isObjectOf (documentFields default fun _ => true) j

/-! ## What is told -/

/-- A JSON value is an object whose fields have a property. -/
def Fielded (P : Table Json → Prop) (j : Json) : Prop :=
  ∃ members, j = .object members ∧ P (Table.ofList members)

/-- What a field tells that may be missing or null: nothing, or what its filling tells. -/
inductive IfAny {α : Type} (Tells : Json → α → Prop) : Option Json → Option α → Prop
  | missing : IfAny Tells none none
  | null : IfAny Tells (some .null) none
  | filled {j : Json} {a : α} (tells : Tells j a) : IfAny Tells (some j) (some a)

/-- A JSON string tells itself. -/
def TellsString (j : Json) (s : String) : Prop := j = .string s

/-- A truth value tells itself. -/
def TellsBool (j : Json) (b : Bool) : Prop := j = .bool b

/-- An object of numbers tells their table. -/
def TellsAmounts (j : Json) (t : Table Amount) : Prop :=
  Fielded (fun fields => fields.Along (fun _ j a => j = .number a) t) j

/-- An object of numbers and strings tells their table. -/
def TellsValues (j : Json) (t : Table Value) : Prop :=
  Fielded (fun fields => fields.Along (fun _ j v => j = v.toJson) t) j

/-- A field tells a string, and if it is missing or null, the default one. -/
def TellsOr (default : String) (found : Option Json) (s : String) : Prop :=
  ∃ told, IfAny TellsString found told ∧ told.getD default = s

/-- A field tells an id, and if it is missing, the default one. -/
def TellsId (default : Option String) (found : Option Json) (id : String) : Prop :=
  found = some (.string id) ∨ found = none ∧ default = some id

/-- What an option of a choice tells, by its place among the options. -/
structure TellsOption (index : Nat) (fields : Table Json) (option : ChoiceOption) : Prop where
  id : TellsId (some (Nat.repr index)) (fields.find? "id") option.id
  label : fields.find? "label" = some (.string option.label)
  next : TellsOr "" (fields.find? "next") option.next
  gain : IfAny TellsAmounts (fields.find? "gain") option.gain
  requirement : IfAny TellsAmounts (fields.find? "req") option.requirement
  remark : IfAny TellsString (fields.find? "meta") option.remark

/-- The items of a list, from an index on, tell options. -/
def TellsOptions (index : Nat) (items : List Json) (options : List ChoiceOption) : Prop :=
  List.Forall₂ (fun item option => Fielded (fun fields => TellsOption item.2 fields option) item.1)
    (items.zipIdx index) options

/-- What the fields of a node of a kind tell. -/
inductive TellsNode (fields : Table Json) : String → Node → Prop
  | background {image next : String} (hbg : fields.find? "bg" = some (.string image))
      (hnext : TellsOr "" (fields.find? "next") next) :
      TellsNode fields "bg" (.background image next)
  | music {track next : String} (hmusic : fields.find? "music" = some (.string track))
      (hnext : TellsOr "" (fields.find? "next") next) :
      TellsNode fields "music" (.music track next)
  | say {speaker line next : String} (hwho : fields.find? "who" = some (.string speaker))
      (htext : fields.find? "text" = some (.string line))
      (hnext : TellsOr "" (fields.find? "next") next) :
      TellsNode fields "say" (.say speaker line next)
  | assign {j : Json} {assignments : Table Value} {next : String}
      (hvars : fields.find? "vars" = some j) (tells : TellsValues j assignments)
      (hnext : TellsOr "" (fields.find? "next") next) :
      TellsNode fields "set" (.assign assignments next)
  | sprite {position : Option String} {who image next : String}
      (hpos : IfAny TellsString (fields.find? "pos") position)
      (hwho : fields.find? "who" = some (.string who))
      (hsprite : fields.find? "sprite" = some (.string image))
      (hnext : TellsOr "" (fields.find? "next") next) :
      TellsNode fields "sprite" (.sprite who image (positionOf position) next)
  | choice {items : List Json} {options : List ChoiceOption} {prompt : String}
      (hoptions : fields.find? "options" = some (.array items))
      (tells : TellsOptions 0 items options) (htext : TellsOr "" (fields.find? "text") prompt) :
      TellsNode fields "choice" (.choice prompt options)
  | check {requirement : Option (Table Amount)} {onPass onFail : String}
      (hreq : IfAny TellsAmounts (fields.find? "req") requirement)
      (hpass : fields.find? "onPass" = some (.string onPass))
      (hfail : fields.find? "onFail" = some (.string onFail)) :
      TellsNode fields "check" (.check requirement onPass onFail)
  | sound {effect next : String} (hsfx : fields.find? "sfx" = some (.string effect))
      (hnext : TellsOr "" (fields.find? "next") next) :
      TellsNode fields "sfx" (.sound effect next)
  | minigame {game rules onWin onLose : String} (hid : fields.find? "id" = some (.string game))
      (hrules : TellsOr "" (fields.find? "rules") rules)
      (hwin : fields.find? "onWin" = some (.string onWin))
      (hlose : fields.find? "onLose" = some (.string onLose)) :
      TellsNode fields "minigame" (.minigame game rules onWin onLose)
  | jump {target : String} (hto : fields.find? "to" = some (.string target)) :
      TellsNode fields "jump" (.jump target)
  | ending {save : Option Bool} {summary : Option String}
      (hsave : IfAny TellsBool (fields.find? "save") save)
      (hsummary : IfAny TellsString (fields.find? "summary") summary) :
      TellsNode fields "end" (.ending summary save)
  | unknown {kind : String} (hkind : kind ∉ kinds) :
      TellsNode fields kind (.unknown kind)

/-- What a JSON value tells as a node, by the kind that it says it is of. -/
def TellsNodeOf (j : Json) (node : Node) : Prop :=
  Fielded (fun fields =>
    ∃ kind, fields.find? "type" = some (.string kind) ∧ TellsNode fields kind node) j

/-- What the fields of a document tell.  A missing or empty title is the id. -/
structure TellsEpisode (default : Option String) (fields : Table Json) (e : Episode) : Prop where
  id : TellsId default (fields.find? "episodeId") e.id
  title : ∃ title, IfAny TellsString (fields.find? "title") title ∧
    e.title = (title.filter fun t => t ≠ "").getD e.id
  start : fields.find? "start" = some (.string e.start)
  nodes : ∃ j, fields.find? "nodes" = some j ∧
    Fielded (fun nodes => nodes.Along (fun _ => TellsNodeOf) e.nodes) j

/-- What a document tells. -/
def Tells (default : Option String) (j : Json) (e : Episode) : Prop :=
  Fielded (fun fields => TellsEpisode default fields e) j

/-! ## What follows the grammar tells something -/

theorem exists_string {found : Option Json} :
    (∃ s, found = some (.string s)) ↔ string found = true := by
  rw [string.eq_def]
  split <;> simp_all

theorem exists_ifAny {α : Type} {R : Json → α → Prop} {shape : Shape}
    (h : ∀ j, (∃ a, R j a) ↔ shape (some j) = true) {found : Option Json} :
    (∃ a, IfAny R found a) ↔ ifAny shape found = true := by
  rw [ifAny.eq_def]
  split
  · exact ⟨fun _ => rfl, fun _ => ⟨none, .missing⟩⟩
  · exact ⟨fun _ => rfl, fun _ => ⟨none, .null⟩⟩
  · next hnone hnull =>
    cases found with
    | none => exact absurd rfl hnone
    | some j =>
      rw [← h j]
      constructor
      · rintro ⟨a, ha⟩
        cases ha with
        | null => exact absurd rfl hnull
        | filled tells => exact ⟨_, tells⟩
      · rintro ⟨a, tells⟩
        exact ⟨some a, .filled tells⟩

theorem exists_ifAny_string {found : Option Json} :
    (∃ s, IfAny TellsString found s) ↔ ifAny string found = true := by
  refine exists_ifAny fun j => ?_
  rw [← exists_string]
  simp [TellsString]

theorem exists_ifAny_boolean {found : Option Json} :
    (∃ b, IfAny TellsBool found b) ↔ ifAny boolean found = true := by
  refine exists_ifAny fun j => ?_
  cases j <;> simp [TellsBool, boolean]

theorem exists_tellsOr {default : String} {found : Option Json} :
    (∃ s, TellsOr default found s) ↔ ifAny string found = true := by
  rw [← exists_ifAny_string]
  constructor
  · rintro ⟨s, told, htold, -⟩
    exact ⟨told, htold⟩
  · rintro ⟨told, htold⟩
    exact ⟨told.getD default, told, htold, rfl⟩

theorem exists_tellsId {default : Option String} {found : Option Json} :
    (∃ id, TellsId default found id) ↔
      (if default.isSome then ifGiven string else string) found = true := by
  cases found with
  | none => cases default <;> simp [TellsId, ifGiven, string]
  | some j => cases default <;> simp [TellsId, ifGiven, ← exists_string]

/-- A table tells something if each of its values does. -/
theorem exists_table {α : Type} {R : Json → α → Prop} {each : Json → Bool}
    (h : ∀ j, (∃ a, R j a) ↔ each j = true) {j : Json} :
    (∃ t, Fielded (fun fields => fields.Along (fun _ => R) t) j) ↔ table each (some j) = true := by
  cases j with
  | object members =>
    rw [table, List.all_eq_true]
    simp only [← h]
    rw [← Table.exists_along_iff (R := fun _ => R)]
    simp [Fielded]
  | _ => simp [Fielded, table]

theorem exists_amounts {j : Json} : (∃ t, TellsAmounts j t) ↔ amounts (some j) = true :=
  exists_table fun j => by cases j <;> simp

theorem exists_ifAny_amounts {found : Option Json} :
    (∃ t, IfAny TellsAmounts found t) ↔ ifAny amounts found = true :=
  exists_ifAny fun _ => exists_amounts

theorem exists_filled {α : Type} {R : Json → α → Prop} {shape : Shape}
    (missing : shape none = false) (h : ∀ j, (∃ a, R j a) ↔ shape (some j) = true)
    {found : Option Json} :
    (∃ a j, found = some j ∧ R j a) ↔ shape found = true := by
  cases found with
  | none => simp [missing]
  | some j => simp [← h]

theorem exists_values {found : Option Json} :
    (∃ t j, found = some j ∧ TellsValues j t) ↔ values found = true := by
  refine exists_filled rfl fun j => exists_table fun j => ?_
  exact Resources.isValue_iff.symm

theorem exists_fielded {α : Type} {R : Table Json → α → Prop} {fields : Fields}
    (h : ∀ found, (∃ a, R found a) ↔ fields.fit found = true) {j : Json} :
    (∃ a, Fielded (fun found => R found a) j) ↔ isObjectOf fields j = true := by
  cases j with
  | object members =>
    rw [isObjectOf, ← h]
    simp [Fielded]
  | _ => simp [Fielded, isObjectOf]

theorem exists_tellsOption (index : Nat) {fields : Table Json} :
    (∃ option, TellsOption index fields option) ↔ optionFields.fit fields = true := by
  have exists_id : (∃ id, TellsId (some (Nat.repr index)) (fields.find? "id") id) ↔ _ :=
    exists_tellsId
  simp only [optionFields, Fields.fit, List.all_cons, List.all_nil, Bool.and_true,
    Bool.and_eq_true]
  constructor
  · rintro ⟨option, h⟩
    exact ⟨exists_id.1 ⟨_, h.id⟩, exists_string.1 ⟨_, h.label⟩, exists_tellsOr.1 ⟨_, h.next⟩,
      exists_ifAny_amounts.1 ⟨_, h.gain⟩, exists_ifAny_amounts.1 ⟨_, h.requirement⟩,
      exists_ifAny_string.1 ⟨_, h.remark⟩⟩
  · rintro ⟨hid, hlabel, hnext, hgain, hreq, hmeta⟩
    obtain ⟨id, hid⟩ := exists_id.2 hid
    obtain ⟨label, hlabel⟩ := exists_string.2 hlabel
    obtain ⟨next, hnext⟩ := exists_tellsOr.2 hnext
    obtain ⟨gain, hgain⟩ := exists_ifAny_amounts.2 hgain
    obtain ⟨requirement, hreq⟩ := exists_ifAny_amounts.2 hreq
    obtain ⟨remark, hmeta⟩ := exists_ifAny_string.2 hmeta
    exact ⟨⟨id, label, next, gain, requirement, remark⟩, hid, hlabel, hnext, hgain, hreq, hmeta⟩

theorem exists_tellsOptions (index : Nat) {items : List Json} :
    (∃ options, TellsOptions index items options) ↔
      items.all (isObjectOf optionFields) = true := by
  have hitem : ∀ item : Json × Nat,
      (∃ option, Fielded (fun fields => TellsOption item.2 fields option) item.1) ↔
        isObjectOf optionFields item.1 = true :=
    fun item => exists_fielded fun _ => exists_tellsOption item.2
  rw [List.all_eq_true, ← List.zipIdx_map_fst index items, List.forall_mem_map]
  simp only [TellsOptions, exists_forall₂_iff, hitem, List.zipIdx_map_fst]

theorem exists_options {found : Option Json} :
    (∃ items options, found = some (.array items) ∧ TellsOptions 0 items options) ↔
      list (isObjectOf optionFields) found = true := by
  rw [list.eq_def]
  split
  · next items =>
    rw [← exists_tellsOptions 0]
    simp
  · next hlist =>
    constructor
    · rintro ⟨items, options, rfl, -⟩
      exact absurd rfl (hlist items)
    · nofun

/-- A node of a kind tells something just if it has the fields of its kind. -/
theorem exists_tellsNode {fields : Table Json} {kind : String} :
    (∃ node, TellsNode fields kind node) ↔ (fieldsOf kind).fit fields = true := by
  constructor
  · rintro ⟨node, h⟩
    cases h
    case unknown hkind =>
      rw [fieldsOf.eq_def]
      split
      iterate 11 exact absurd (by decide) hkind
      rfl
    all_goals
      simp only [fieldsOf, Fields.fit, List.all_cons, List.all_nil, Bool.and_true,
        Bool.and_eq_true]
    case background hbg hnext => exact ⟨exists_string.1 ⟨_, hbg⟩, exists_tellsOr.1 ⟨_, hnext⟩⟩
    case music hmusic hnext => exact ⟨exists_string.1 ⟨_, hmusic⟩, exists_tellsOr.1 ⟨_, hnext⟩⟩
    case say hwho htext hnext =>
      exact ⟨exists_string.1 ⟨_, hwho⟩, exists_string.1 ⟨_, htext⟩, exists_tellsOr.1 ⟨_, hnext⟩⟩
    case assign hvars tells hnext =>
      exact ⟨exists_values.1 ⟨_, _, hvars, tells⟩, exists_tellsOr.1 ⟨_, hnext⟩⟩
    case sprite hpos hwho hsprite hnext =>
      exact ⟨exists_ifAny_string.1 ⟨_, hpos⟩, exists_string.1 ⟨_, hwho⟩,
        exists_string.1 ⟨_, hsprite⟩, exists_tellsOr.1 ⟨_, hnext⟩⟩
    case choice hoptions tells htext =>
      exact ⟨exists_options.1 ⟨_, _, hoptions, tells⟩, exists_tellsOr.1 ⟨_, htext⟩⟩
    case check hreq hpass hfail =>
      exact ⟨exists_ifAny_amounts.1 ⟨_, hreq⟩, exists_string.1 ⟨_, hpass⟩,
        exists_string.1 ⟨_, hfail⟩⟩
    case sound hsfx hnext => exact ⟨exists_string.1 ⟨_, hsfx⟩, exists_tellsOr.1 ⟨_, hnext⟩⟩
    case minigame hid hrules hwin hlose =>
      exact ⟨exists_string.1 ⟨_, hid⟩, exists_tellsOr.1 ⟨_, hrules⟩, exists_string.1 ⟨_, hwin⟩,
        exists_string.1 ⟨_, hlose⟩⟩
    case jump hto => exact exists_string.1 ⟨_, hto⟩
    case ending hsave hsummary =>
      exact ⟨exists_ifAny_boolean.1 ⟨_, hsave⟩, exists_ifAny_string.1 ⟨_, hsummary⟩⟩
  · intro fits
    by_cases hkind : kind ∈ kinds
    · simp only [kinds, List.mem_cons, List.not_mem_nil, or_false] at hkind
      rcases hkind with rfl | rfl | rfl | rfl | rfl | rfl | rfl | rfl | rfl | rfl | rfl
      all_goals
        simp only [fieldsOf, Fields.fit, List.all_cons, List.all_nil, Bool.and_true,
          Bool.and_eq_true] at fits
      · obtain ⟨⟨image, hbg⟩, ⟨next, hnext⟩⟩ := fits.imp exists_string.2 exists_tellsOr.2
        exact ⟨_, .background hbg hnext⟩
      · obtain ⟨⟨track, hmusic⟩, ⟨next, hnext⟩⟩ := fits.imp exists_string.2 exists_tellsOr.2
        exact ⟨_, .music hmusic hnext⟩
      · obtain ⟨hwho, htext, hnext⟩ := fits
        obtain ⟨speaker, hwho⟩ := exists_string.2 hwho
        obtain ⟨line, htext⟩ := exists_string.2 htext
        obtain ⟨next, hnext⟩ := exists_tellsOr.2 hnext
        exact ⟨_, .say hwho htext hnext⟩
      · obtain ⟨hvars, hnext⟩ := fits
        obtain ⟨assignments, j, hvars, tells⟩ := exists_values.2 hvars
        obtain ⟨next, hnext⟩ := exists_tellsOr.2 hnext
        exact ⟨_, .assign hvars tells hnext⟩
      · obtain ⟨hpos, hwho, hsprite, hnext⟩ := fits
        obtain ⟨position, hpos⟩ := exists_ifAny_string.2 hpos
        obtain ⟨who, hwho⟩ := exists_string.2 hwho
        obtain ⟨image, hsprite⟩ := exists_string.2 hsprite
        obtain ⟨next, hnext⟩ := exists_tellsOr.2 hnext
        exact ⟨_, .sprite hpos hwho hsprite hnext⟩
      · obtain ⟨hoptions, htext⟩ := fits
        obtain ⟨items, options, hoptions, tells⟩ := exists_options.2 hoptions
        obtain ⟨prompt, htext⟩ := exists_tellsOr.2 htext
        exact ⟨_, .choice hoptions tells htext⟩
      · obtain ⟨hreq, hpass, hfail⟩ := fits
        obtain ⟨requirement, hreq⟩ := exists_ifAny_amounts.2 hreq
        obtain ⟨onPass, hpass⟩ := exists_string.2 hpass
        obtain ⟨onFail, hfail⟩ := exists_string.2 hfail
        exact ⟨_, .check hreq hpass hfail⟩
      · obtain ⟨⟨effect, hsfx⟩, ⟨next, hnext⟩⟩ := fits.imp exists_string.2 exists_tellsOr.2
        exact ⟨_, .sound hsfx hnext⟩
      · obtain ⟨hid, hrules, hwin, hlose⟩ := fits
        obtain ⟨game, hid⟩ := exists_string.2 hid
        obtain ⟨rules, hrules⟩ := exists_tellsOr.2 hrules
        obtain ⟨onWin, hwin⟩ := exists_string.2 hwin
        obtain ⟨onLose, hlose⟩ := exists_string.2 hlose
        exact ⟨_, .minigame hid hrules hwin hlose⟩
      · obtain ⟨target, hto⟩ := exists_string.2 fits
        exact ⟨_, .jump hto⟩
      · obtain ⟨hsave, hsummary⟩ := fits
        obtain ⟨save, hsave⟩ := exists_ifAny_boolean.2 hsave
        obtain ⟨summary, hsummary⟩ := exists_ifAny_string.2 hsummary
        exact ⟨_, .ending hsave hsummary⟩
    · exact ⟨_, .unknown hkind⟩

/-- The JSON values that tell something as nodes. -/
theorem exists_tellsNodeOf {j : Json} : (∃ node, TellsNodeOf j node) ↔ isNode j = true := by
  cases j with
  | object members =>
    simp only [TellsNodeOf, Fielded, Json.object.injEq, exists_eq_left', isNode]
    split
    · next kind hkind =>
      rw [← exists_tellsNode]
      constructor
      · rintro ⟨node, other, hother, tells⟩
        rw [hkind] at hother
        cases hother
        exact ⟨node, tells⟩
      · rintro ⟨node, tells⟩
        exact ⟨node, kind, hkind, tells⟩
    · next hnone =>
      constructor
      · rintro ⟨node, kind, hkind, -⟩
        exact absurd hkind (hnone kind)
      · intro h
        cases h
  | _ => simp [TellsNodeOf, Fielded, isNode]

theorem exists_nodes {found : Option Json} :
    (∃ nodes : Table Node, ∃ j, found = some j ∧
        Fielded (fun fields => fields.Along (fun _ => TellsNodeOf) nodes) j) ↔
      table isNode found = true :=
  exists_filled rfl fun _ => exists_table fun _ => exists_tellsNodeOf

theorem exists_tellsEpisode {default : Option String} {fields : Table Json} :
    (∃ e, TellsEpisode default fields e) ↔ (documentFields default isNode).fit fields = true := by
  simp only [documentFields, Fields.fit, List.all_cons, List.all_nil, Bool.and_true,
    Bool.and_eq_true]
  constructor
  · rintro ⟨e, h⟩
    obtain ⟨title, htitle, -⟩ := h.title
    exact ⟨exists_tellsId.1 ⟨_, h.id⟩, exists_ifAny_string.1 ⟨_, htitle⟩,
      exists_string.1 ⟨_, h.start⟩, exists_nodes.1 ⟨_, h.nodes⟩⟩
  · rintro ⟨hid, htitle, hstart, hnodes⟩
    obtain ⟨id, hid⟩ := exists_tellsId.2 hid
    obtain ⟨title, htitle⟩ := exists_ifAny_string.2 htitle
    obtain ⟨start, hstart⟩ := exists_string.2 hstart
    obtain ⟨nodes, hnodes⟩ := exists_nodes.2 hnodes
    exact ⟨⟨id, (title.filter fun t => t ≠ "").getD id, start, nodes⟩, hid, ⟨title, htitle, rfl⟩,
      hstart, hnodes⟩

/-- The documents that follow the grammar are those that tell an episode. -/
theorem exists_tells {default : Option String} {j : Json} :
    (∃ e, Tells default j e) ↔ isDocument default j = true :=
  exists_fielded fun _ => exists_tellsEpisode

end Episode

end Storyline
