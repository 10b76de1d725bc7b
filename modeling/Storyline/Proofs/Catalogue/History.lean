import Storyline.Proofs.Catalogue

/-!
# Storyline.Proofs.Catalogue.History

What a catalogue answers after any history.  Between the requests files come, change and go, and
the environment may name another directory.  A request that fails leaves no trace: the next one
looks into the file again.  The first one that does not fail settles the matter, and from then on
the episode that was found is the answer, whatever becomes of its file.
-/

namespace Storyline.Catalogue

/-- A catalogue with the environment and the disk that it is used with. -/
structure Library where
  catalogue : Catalogue
  env : Environment
  disk : Disk
deriving DecidableEq, Repr

/-- What happens to a library. -/
inductive Happening
  /-- An episode is asked for. -/
  | ask (id : String)
  /-- Files are made, replaced or taken away, and leave another disk. -/
  | files (disk : Disk)
  /-- Variables are set or unset, and leave another environment. -/
  | environment (env : Environment)
deriving DecidableEq, Repr

/-- A document is that of an episode, which has the given id if it does not say its own. -/
def IsDocument (d : Disk) (file : Path) (id : String) (e : Episode) : Prop :=
  ∃ text members, d.readText file = .ok text ∧ Json.read text = .ok (.object members) ∧
    Episode.ofJson (some id) (.object members) = .ok e

theorem readJson_ok_iff {d : Disk} {file : Path} {j : Json} :
    readJson d file = .ok j ↔ ∃ text, d.readText file = .ok text ∧ Json.read text = .ok j := by
  rw [readJson]
  cases d.readText file with
  | error fault =>
    refine iff_of_false (fun h => ?_) (by rintro ⟨text, h, -⟩; cases h)
    cases fault with
    | refused problem path => cases problem <;> cases h
    | _ => cases h
  | ok text =>
    simp only [Except.ok.injEq, exists_eq_left']
    cases Json.read text with
    | ok found => simp
    | error refusal => cases refusal <;> simp

theorem readEpisode_ok_iff {d : Disk} {file : Path} {id : String} {e : Episode} :
    readEpisode d file id = .ok e ↔ IsDocument d file id e := by
  rw [readEpisode, bind_ok_iff]
  constructor
  · rintro ⟨j, hread, h⟩
    obtain ⟨text, htext, hjson⟩ := readJson_ok_iff.1 hread
    cases j with
    | object members =>
      dsimp only at h
      split at h
      · next found hfound =>
        cases h
        exact ⟨text, members, htext, hjson, hfound⟩
      · cases h
    | _ => cases h
  · rintro ⟨text, members, htext, hjson, hfound⟩
    refine ⟨.object members, readJson_ok_iff.2 ⟨text, htext, hjson⟩, ?_⟩
    simp only [hfound]
    rfl

namespace Library

/-- The file of an episode, in the directory that is given or that the environment names. -/
def file (base : Option Path) (id : String) (l : Library) : Path :=
  (l.env.contentDirectory base).join (id ++ ".json")

/-- What the file of an episode tells, with nothing remembered. -/
def reading (id : String) (l : Library) : Except CatalogueFault Episode :=
  readEpisode l.disk (l.file l.catalogue.base id) id

/-- The episode that is known by an id. -/
def known? (id : String) (l : Library) : Option Episode := l.catalogue.known.find? id

/-- The library once an episode is known by an id. -/
def learn (id : String) (e : Episode) (l : Library) : Library :=
  { l with catalogue := { l.catalogue with known := l.catalogue.known.insert id e } }

/-- Asks for an episode. -/
def ask (id : String) (l : Library) : Except CatalogueFault Episode × Library :=
  let (answer, catalogue) := l.catalogue.get l.env l.disk id
  (answer, { l with catalogue })

/-- The library after something happened to it. -/
def step (l : Library) : Happening → Library
  | .ask id => (l.ask id).2
  | .files disk => { l with disk }
  | .environment env => { l with env }

/-- The library after a history. -/
def after (history : List Happening) (l : Library) : Library := history.foldl step l

/-- An episode was found in the course of a history. -/
def Found (id : String) (e : Episode) (history : List Happening) (l : Library) : Prop :=
  ∃ before later, history = before ++ .ask id :: later ∧ ((l.after before).ask id).1 = .ok e

variable {l : Library} {id : String} {e : Episode} {fault : CatalogueFault}
  {history : List Happening}

theorem known?_learn (other : String) (found : Episode) (l : Library) :
    (l.learn other found).known? id = if other = id then some found else l.known? id :=
  Table.find?_insert _ other id found

/-! ## Requests -/

/-- What a request can come to: the episode is known; or its file is read in vain, and nothing
changes; or it is read, and the episode is known from then on. -/
theorem ask_cases (id : String) (l : Library) :
    (∃ e, l.known? id = some e ∧ l.ask id = (.ok e, l)) ∨
      (∃ fault, l.known? id = none ∧ l.reading id = .error fault ∧
        l.ask id = (.error fault, l)) ∨
      ∃ e, l.known? id = none ∧ l.reading id = .ok e ∧ l.ask id = (.ok e, l.learn id e) := by
  have hreading : readEpisode l.disk (l.catalogue.file l.env id) id = l.reading id := rfl
  simp only [known?, ask, get, hreading]
  cases l.catalogue.known.find? id with
  | some e => exact .inl ⟨e, rfl, rfl⟩
  | none =>
    cases l.reading id with
    | error fault => exact .inr (.inl ⟨fault, rfl, rfl, rfl⟩)
    | ok e => exact .inr (.inr ⟨e, rfl, rfl, rfl⟩)

/-- An episode that is known is the answer. -/
theorem ask_of_known (h : l.known? id = some e) : l.ask id = (.ok e, l) := by
  obtain ⟨known, hknown, hask⟩ | ⟨fault, hnone, -⟩ | ⟨found, hnone, -⟩ := l.ask_cases id
  · rw [h] at hknown
    cases hknown
    exact hask
  · rw [h] at hnone
    cases hnone
  · rw [h] at hnone
    cases hnone

/-- One that is not known is looked for in its file. -/
theorem ask_of_unknown (h : l.known? id = none) : (l.ask id).1 = l.reading id := by
  obtain ⟨known, hknown, -⟩ | ⟨fault, -, hread, hask⟩ | ⟨found, -, hread, hask⟩ := l.ask_cases id
  · rw [h] at hknown
    cases hknown
  · rw [hask, hread]
  · rw [hask, hread]

/-- A request that fails changes nothing, and was for an episode that is not known. -/
theorem ask_of_error (h : (l.ask id).1 = .error fault) : (l.ask id).2 = l ∧ l.known? id = none := by
  obtain ⟨known, -, hask⟩ | ⟨other, hnone, -, hask⟩ | ⟨found, -, -, hask⟩ := l.ask_cases id
  · rw [hask] at h
    cases h
  · rw [hask]
    exact ⟨rfl, hnone⟩
  · rw [hask] at h
    cases h

/-- What is answered is known afterwards. -/
theorem known_of_ask (h : (l.ask id).1 = .ok e) : (l.ask id).2.known? id = some e := by
  obtain ⟨known, hknown, hask⟩ | ⟨fault, -, -, hask⟩ | ⟨found, -, -, hask⟩ := l.ask_cases id
  · rw [hask] at h ⊢
    cases h
    exact hknown
  · rw [hask] at h
    cases h
  · rw [hask] at h ⊢
    cases h
    rw [known?_learn, if_pos rfl]

/-! ## Steps -/

theorem base_step (l : Library) (happening : Happening) :
    (l.step happening).catalogue.base = l.catalogue.base := by
  cases happening with
  | ask id =>
    obtain ⟨e, -, hask⟩ | ⟨fault, -, -, hask⟩ | ⟨e, -, -, hask⟩ := l.ask_cases id <;>
      rw [step, hask]
    rfl
  | files disk => rfl
  | environment env => rfl

/-- What is known stays known. -/
theorem known_step (h : l.known? id = some e) (happening : Happening) :
    (l.step happening).known? id = some e := by
  cases happening with
  | ask other =>
    obtain ⟨known, -, hask⟩ | ⟨fault, -, -, hask⟩ | ⟨found, hnone, -, hask⟩ := l.ask_cases other
    · rwa [step, hask]
    · rwa [step, hask]
    · have hne : ¬other = id := by
        rintro rfl
        rw [h] at hnone
        cases hnone
      rwa [step, hask, known?_learn, if_neg hne]
  | files disk => exact h
  | environment env => exact h

/-- Nothing becomes known but what is asked for and answered. -/
theorem known_of_step {happening : Happening} (h : (l.step happening).known? id = some e) :
    l.known? id = some e ∨ happening = .ask id ∧ (l.ask id).1 = .ok e := by
  cases happening with
  | ask other =>
    obtain ⟨known, -, hask⟩ | ⟨fault, -, -, hask⟩ | ⟨found, -, -, hask⟩ := l.ask_cases other
    · rw [step, hask] at h
      exact .inl h
    · rw [step, hask] at h
      exact .inl h
    · rw [step, hask, known?_learn] at h
      split at h
      · next heq =>
        subst heq
        cases h
        exact .inr ⟨rfl, by rw [hask]⟩
      · exact .inl h
  | files disk => exact .inl h
  | environment env => exact .inl h

/-! ## Histories -/

theorem after_append (before later : List Happening) (l : Library) :
    l.after (before ++ later) = (l.after before).after later :=
  List.foldl_append

theorem base_after (history : List Happening) (l : Library) :
    (l.after history).catalogue.base = l.catalogue.base := by
  induction history generalizing l with
  | nil => rfl
  | cons happening rest ih => exact (ih (l.step happening)).trans (base_step l happening)

theorem known_after (h : l.known? id = some e) (history : List Happening) :
    (l.after history).known? id = some e := by
  induction history generalizing l with
  | nil => exact h
  | cons happening rest ih => exact ih (known_step h happening)

/-- After a history just that is known which was known before or was found in its course. -/
theorem known_after_iff :
    (l.after history).known? id = some e ↔ l.known? id = some e ∨ Found id e history l := by
  constructor
  · intro h
    induction history generalizing l with
    | nil => exact .inl h
    | cons happening rest ih =>
      obtain hstep | ⟨before, later, rfl, hfound⟩ := ih (l := l.step happening) h
      · obtain hknown | ⟨rfl, hanswer⟩ := known_of_step hstep
        · exact .inl hknown
        · exact .inr ⟨[], rest, rfl, hanswer⟩
      · exact .inr ⟨happening :: before, later, rfl, hfound⟩
  · rintro (h | ⟨before, later, rfl, hfound⟩)
    · exact known_after h history
    · rw [after_append]
      exact known_after (l := (l.after before).step (.ask id)) (known_of_ask hfound) later

/-- In a history without a request for an episode it is not found. -/
theorem not_found_of_not_mem (h : .ask id ∉ history) : ¬Found id e history l := by
  rintro ⟨before, later, rfl, -⟩
  exact h (by simp)

end Library

/-- Whatever happened, a request for an episode that was not found yet reads its file as it then
is, in the directory that then is selected.  If it fails, the library is left as it was, and so
the next request reads the file again.  If it does not, its answer is that to every later
request, whatever happens in between to the file, to the directory or to other episodes. -/
theorem first_find_is_kept (base : Option Path) (env : Environment) (disk : Disk)
    (history : List Happening) (id : String) :
    let start : Library := ⟨Catalogue.new base, env, disk⟩
    let l := start.after history
    ((∀ e, ¬start.Found id e history) →
      (l.ask id).1 = readEpisode l.disk (l.file base id) id ∧
        ∀ e, (l.ask id).1 = .ok e ↔ IsDocument l.disk (l.file base id) id e) ∧
    (∀ fault, (l.ask id).1 = .error fault → (l.ask id).2 = l ∧
      ∀ later, .ask id ∉ later →
        ((l.after later).ask id).1 =
          readEpisode (l.after later).disk ((l.after later).file base id) id) ∧
    ∀ e, (l.ask id).1 = .ok e → ∀ later, (((l.ask id).2.after later).ask id).1 = .ok e := by
  intro start l
  have hbase : l.catalogue.base = base := Library.base_after history start
  refine ⟨fun unfound => ?_, fun fault h => ?_, fun e h later => ?_⟩
  · have hunknown : l.known? id = none := by
      cases hknown : l.known? id with
      | none => rfl
      | some e =>
        obtain h | h := Library.known_after_iff.1 hknown
        · cases h
        · exact absurd h (unfound e)
    have hanswer := Library.ask_of_unknown hunknown
    rw [Library.reading, hbase] at hanswer
    exact ⟨hanswer, fun e => by rw [hanswer, readEpisode_ok_iff]⟩
  · obtain ⟨hleft, hunknown⟩ := Library.ask_of_error h
    refine ⟨hleft, fun later hlater => ?_⟩
    have hstill : (l.after later).known? id = none := by
      cases hknown : (l.after later).known? id with
      | none => rfl
      | some e =>
        obtain h | h := Library.known_after_iff.1 hknown
        · rw [hunknown] at h
          cases h
        · exact absurd h (Library.not_found_of_not_mem hlater)
    have hanswer := Library.ask_of_unknown hstill
    rwa [Library.reading, Library.base_after, hbase] at hanswer
  · rw [Library.ask_of_known (Library.known_after (Library.known_of_ask h) later)]

/-- A mill that is nothing but its last page. -/
def millDocument (title : String) : List UInt8 :=
  Text.encode ("\x7b\"title\": \"" ++ title ++ "\", \"start\": \"fin\", \"nodes\": " ++
    "\x7b\"fin\": \x7b\"type\": \"end\"\x7d\x7d\x7d")

/-- An environment that names the directory of the episodes. -/
def environmentNaming (directory : String) : Environment :=
  ⟨Table.ofList [(Environment.contentVariable, directory)], Table.empty, false, Path.ofText "/app"⟩

/-- The file is missing at first, then it breaks off, and at last it can be read.  From then on
the episode stays, though the file is replaced, the directory changed and all files taken away. -/
theorem old_mill_is_kept :
    let empty : Disk := ⟨[], []⟩
    let held := diskWithMill (millDocument "Old mill")
    let history : List Happening :=
      [.ask "mill", .files (diskWithMill (Text.encode "[1")), .ask "mill", .files held]
    let later : List Happening := [.files (diskWithMill (millDocument "New mill")), .ask "inn",
      .environment (environmentNaming "inns"), .ask "mill", .files empty]
    let start : Library := ⟨Catalogue.new none, environmentNaming "eps", empty⟩
    let l := start.after history
    let mill : Episode := ⟨"mill", "Old mill", "fin", Table.ofList [("fin", .ending none none)]⟩
    (start.ask "mill").1 = .error (.missing ⟨.here, ["eps", "mill.json"]⟩) ∧
      (start.ask "mill").2 = start ∧
      (∀ e, ¬start.Found "mill" e history) ∧
      (l.ask "mill").1 = .ok mill ∧ IsDocument held ⟨.here, ["eps", "mill.json"]⟩ "mill" mill ∧
      (((l.ask "mill").2.after later).ask "mill").1 = .ok mill := by
  intro empty held history later start l mill
  have missing : (start.ask "mill").1 = .error (.missing ⟨.here, ["eps", "mill.json"]⟩) := by
    decide +kernel
  have found : (l.ask "mill").1 = .ok mill := by decide +kernel
  have hfile : l.file none "mill" = ⟨.here, ["eps", "mill.json"]⟩ := by decide +kernel
  have unknown : l.known? "mill" = none := by decide +kernel
  have unfound : ∀ e, ¬start.Found "mill" e history := by
    intro e h
    have known : l.known? "mill" = some e := Library.known_after_iff.2 (.inr h)
    rw [unknown] at known
    cases known
  obtain ⟨-, leaves, -⟩ := first_find_is_kept none (environmentNaming "eps") empty [] "mill"
  obtain ⟨reads, -, keeps⟩ :=
    first_find_is_kept none (environmentNaming "eps") empty history "mill"
  have document : IsDocument held (l.file none "mill") "mill" mill :=
    ((reads unfound).2 mill).1 found
  rw [hfile] at document
  exact ⟨missing, (leaves _ missing).1, unfound, found, document, keeps mill found later⟩

end Storyline.Catalogue
