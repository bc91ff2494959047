import SoundLaw.Proofs.Rule.Nameless
import SoundLaw.Proofs.Store.Loading

/-!
Kinds of documents. How the reading of a document ends is told by what is at its path: nothing, a
directory, a file that is no JSON, a value of the wrong shape, with issues, or with a record that
has no id, and else a valid value.
-/
namespace SoundLaw
open Checked Json Fields

/-! ### Written lexicons and inventories -/

theorem LexiconEntry.check_json (e : LexiconEntry) : LexiconEntry.check e.json = pure e := by
  have tags : Fields.defaulted "tags" [] checkTexts
      [("entry_id", .text e.id), ("con_word_romanized", .text e.romanized),
        ("phonetic_ipa", .text e.phonetic), ("language_id", .text e.language),
        ("tags", .texts e.tags)] = pure e.tags := by
    show inside _ (checkTexts _) = _
    rw [checkTexts_texts, inside_pure]
  show checkFields _ = _
  rw [checkFields, tags]
  rfl

theorem checkEntries_json (entries : List LexiconEntry) :
    Store.checkEntries (entries.map LexiconEntry.json) = pure entries := by
  induction entries with
  | nil => rfl
  | cons e rest ih =>
    rw [List.map_cons, Store.checkEntries, e.check_json, ih]
    rfl

theorem Json.checkFieldValues_texts (macros : Macros) :
    checkFieldValues checkTexts (macros.map fun m => (m.1, .texts m.2)) = pure macros := by
  induction macros with
  | nil => rfl
  | cons m rest ih =>
    rw [List.map_cons, checkFieldValues, checkTexts_texts, ih]
    rfl

theorem Inventory.check_json (i : Inventory) : Inventory.check i.json = pure i := by
  let fields : Fields :=
    [("consonants", .texts i.consonants), ("vowels", .texts i.vowels), ("macros", i.macros.json)]
  have texts : ∀ l v, v = Json.texts l → checkTexts v = pure l := by
    rintro l _ rfl
    exact checkTexts_texts l
  have table : ∀ m v, v = Macros.json m → checkTable checkTexts v = pure m := by
    rintro m _ rfl
    exact checkFieldValues_texts m
  have consonants : fields.defaulted "consonants" [] checkTexts = pure i.consonants :=
    defaulted_pure texts (Or.inl ⟨_, rfl, rfl⟩)
  have vowels : fields.defaulted "vowels" [] checkTexts = pure i.vowels :=
    defaulted_pure texts (Or.inl ⟨_, rfl, rfl⟩)
  have macros : fields.defaulted "macros" [] (checkTable checkTexts) = pure i.macros :=
    defaulted_pure table (Or.inl ⟨_, rfl, rfl⟩)
  show checkFields fields = _
  rw [checkFields, consonants, vowels, macros]
  rfl

/-! ### Checks that collect -/

theorem LexiconEntry.collects_check (v : Json) : Collects (LexiconEntry.check v) := by
  cases v with
  | object fields =>
    have id := collects_required collects_checkText "entry_id" fields
    have text (name : Text) := collects_defaulted collects_checkText name [] fields
    have tags := collects_defaulted collects_checkTexts "tags" [] fields
    show Collects (checkFields fields)
    simp only [checkFields, collects_map, collects_both]
    exact ⟨⟨id, text _⟩, ⟨text _, text _⟩, tags⟩
  | _ => exact collects_fail _

theorem collects_checkEntries (items : List Json) : Collects (Store.checkEntries items) := by
  induction items with
  | nil => exact collects_pure []
  | cons item rest ih =>
    exact collects_bind (LexiconEntry.collects_check item) fun e =>
      collects_bind ih fun entries => collects_pure _

theorem Inventory.collects_check (v : Json) : Collects (Inventory.check v) := by
  cases v with
  | object fields =>
    have texts (name : Text) := collects_defaulted collects_checkTexts name [] fields
    have macros := collects_defaulted (collects_checkTable collects_checkTexts) "macros" [] fields
    show Collects (checkFields fields)
    simp only [checkFields, collects_map, and3, collects_both]
    exact ⟨texts _, texts _, macros⟩
  | _ => exact collects_fail _

/-! ### Kinds of documents -/

theorem Store.holds_eq_false {s : Store} {path : Path} :
    s.holds path = false ↔ ∃ f, s.look path = .error f := by
  rw [holds]
  cases s.look path <;> simp [Except.toOption]

def Content.json? : Content → Option Json
  | .text t => Json.read? .document t
  | .binary _ => none

/-- A kind of documents. -/
structure Document (α : Type) where
  resource : Text
  /-- The check of a value; none for a value of the wrong shape. -/
  check? : Json → Option (Checked α)
  json : α → Json
  /-- Whether a value holds a record without an id. -/
  Nameless : Json → Prop

namespace Document
variable {α : Type}

/-- The document may hold the value: written down it passes the check as the value that it is. -/
def Valid (d : Document α) (a : α) : Prop := ∃ c, d.check? (d.json a) = some c ∧ c.outcome = .ok a

/-- What holds of each kind: a problem comes of a record without an id alone, and all that can be
held is valid. -/
structure Sound (d : Document α) : Prop where
  problem_iff : ∀ v c, d.check? v = some c →
    ∀ p, c.outcome = .error (.problem p) ↔ d.Nameless v ∧ p = unnamed
  valid : ∀ a, d.Valid a

def configs : Document Config :=
  ⟨Resource.config, fun v => some (Config.check v), Config.json, Config.Nameless⟩

def inventories : Document Inventory :=
  ⟨Resource.inventory, fun v => some (Inventory.check v), Inventory.json, fun _ => False⟩

def lexicons : Document (List LexiconEntry) where
  resource := Resource.lexicon
  check?
    | .array items => some (Store.checkEntries items)
    | _ => none
  json entries := .array (entries.map LexiconEntry.json)
  Nameless _ := False

theorem configs_sound : configs.Sound where
  problem_iff := by
    rintro v _ ⟨⟩ p
    exact Config.check_problem_iff
  valid c := ⟨_, rfl, congrArg Journal.outcome c.check_json⟩

theorem inventories_sound : inventories.Sound where
  problem_iff := by
    rintro v _ ⟨⟩ p
    exact ⟨fun raised => absurd raised (Inventory.collects_check v p), fun h => h.1.elim⟩
  valid i := ⟨_, rfl, congrArg Journal.outcome i.check_json⟩

theorem lexicons_sound : lexicons.Sound where
  problem_iff := by
    intro v c checked p
    cases v with
    | array items =>
      cases checked
      exact ⟨fun raised => absurd raised (collects_checkEntries items p), fun h => h.1.elim⟩
    | _ => cases checked
  valid entries := ⟨_, rfl, congrArg Journal.outcome (checkEntries_json entries)⟩

def missing (d : Document α) (path : Path) : StoreFault :=
  .problem (.missing d.resource (Path.text path) .fileNotFound)

def noJson (d : Document α) (path : Path) : StoreFault :=
  faulty path (d.resource ++ " is not valid JSON") []

def misshapen (d : Document α) (path : Path) : StoreFault :=
  faulty path (d.resource ++ " must be a JSON array of entries") []

def invalid (d : Document α) (path : Path) (l : List Issue) : StoreFault :=
  faulty path (d.resource ++ " failed validation: " ++ Text.decimal l.length ++ " error(s)")
    [("errors", Issue.report l)]

def Spells (s : Store) (path : Path) (v : Json) : Prop :=
  ∃ content, s.look path = .ok (.file content) ∧ content.json? = some v

/-- How the reading of a document ends, by what is at its path. -/
inductive Ends (d : Document α) (s : Store) (path : Path) : Except StoreFault α → Prop
  | missing (absent : s.holds path = false) : Ends d s path (.error (d.missing path))
  | directory (there : s.look path = .ok .directory) : Ends d s path (.error (.file .isDirectory))
  | noJson {content : Content} (there : s.look path = .ok (.file content))
      (unreadable : content.json? = none) : Ends d s path (.error (d.noJson path))
  | misshapen {v : Json} (spelled : Spells s path v) (shapeless : d.check? v = none) :
      Ends d s path (.error (d.misshapen path))
  | unnamed {v : Json} {c : Checked α} (spelled : Spells s path v) (shaped : d.check? v = some c)
      (nameless : d.Nameless v) : Ends d s path (.error (.problem unnamed))
  | invalid {v : Json} {c : Checked α} {l : List Issue} (spelled : Spells s path v)
      (shaped : d.check? v = some c) (named : ¬ d.Nameless v)
      (refused : c.outcome = .error (.issues l)) : Ends d s path (.error (d.invalid path l))
  | value {v : Json} {c : Checked α} {a : α} (spelled : Spells s path v)
      (shaped : d.check? v = some c) (passes : c.outcome = .ok a) (valid : d.Valid a) :
      Ends d s path (.ok a)

def read (d : Document α) (s : Store) (path : Path) : Stored α := do
  let v ← Journal.ofExcept (s.readJson d.resource path)
  match d.check? v with
  | some c => checked d.resource path c
  | none => Journal.raise (d.misshapen path)

theorem read_inventory (s : Store) (path : Path) :
    s.loadInventory path = inventories.read s path := rfl

theorem read_lexicon (s : Store) (path : Path) : s.loadLexicon path = lexicons.read s path := by
  unfold Store.loadLexicon read
  refine congrArg (_ >>= ·) (funext fun v => ?_)
  cases v <;> rfl

theorem read_config (s : Store) (path : Path) :
    (s.readConfig path).outcome = (configs.read s path).outcome := by
  rw [Store.readConfig, read, Journal.outcome_bind, Journal.outcome_bind]
  refine congrArg (Except.bind _) (funext fun v => ?_)
  show (checked Resource.config path (Config.check v) >>= _).outcome = _
  rw [Journal.outcome_bind]
  show Except.bind (checked Resource.config path (Config.check v)).outcome Except.ok =
    (checked Resource.config path (Config.check v)).outcome
  cases (checked Resource.config path (Config.check v)).outcome <;> rfl

variable {d : Document α} {s : Store} {path : Path} {v : Json}

theorem readJson_spelled (resource : Text) (spelled : Spells s path v) :
    s.readJson resource path = .ok v := by
  obtain ⟨content, there, value⟩ := spelled
  rw [Store.readJson, there]
  cases content with
  | text t =>
    dsimp only
    rw [show Json.read? .document t = some v from value]
  | binary bytes => cases value

theorem spells_indented (plain : Json.Plain .document Limits.document.depth v)
    (there : s.look path = .ok (.file (.text (Json.indented 0 v)))) : Spells s path v :=
  ⟨_, there, Json.read?_indented plain 0⟩

theorem read_fault {fault : StoreFault} (ended : s.readJson d.resource path = .error fault) :
    (d.read s path).outcome = .error fault := by
  rw [read, ended]
  rfl

theorem read_spelled (spelled : Spells s path v) :
    d.read s path =
      (d.check? v).elim (Journal.raise (d.misshapen path)) (checked d.resource path) := by
  rw [read, readJson_spelled _ spelled]
  show (match d.check? v with
    | some c => checked d.resource path c
    | none => Journal.raise (d.misshapen path)) = _
  cases d.check? v <;> rfl

theorem read_of_ends (sound : d.Sound) {o : Except StoreFault α} (ends : Ends d s path o) :
    (d.read s path).outcome = o := by
  cases ends with
  | missing absent =>
    obtain ⟨f, nowhere⟩ := Store.holds_eq_false.mp absent
    exact read_fault (by rw [Store.readJson, nowhere]; rfl)
  | directory there => exact read_fault (by rw [Store.readJson, there])
  | @noJson content there unreadable =>
    refine read_fault ?_
    rw [Store.readJson, there]
    cases content with
    | text t =>
      dsimp only
      rw [show Json.read? .document t = none from unreadable]
      rfl
    | binary bytes => rfl
  | misshapen spelled shapeless =>
    rw [read_spelled spelled, shapeless]
    rfl
  | unnamed spelled shaped nameless =>
    have raised := (sound.problem_iff _ _ shaped unnamed).mpr ⟨nameless, rfl⟩
    rw [read_spelled spelled, shaped, Option.elim_some, checked, Journal.outcome_mapError, raised]
    rfl
  | invalid spelled shaped named refused =>
    rw [read_spelled spelled, shaped, Option.elim_some, checked, Journal.outcome_mapError, refused]
    rfl
  | value spelled shaped passes valid =>
    rw [read_spelled spelled, shaped, Option.elim_some, checked, Journal.outcome_mapError, passes]
    rfl

theorem exists_ends (sound : d.Sound) (s : Store) (path : Path) : ∃ o, Ends d s path o := by
  cases look : s.look path with
  | error f => exact ⟨_, .missing (Store.holds_eq_false.mpr ⟨f, look⟩)⟩
  | ok entry =>
    cases entry with
    | directory => exact ⟨_, .directory look⟩
    | file content =>
      cases value : content.json? with
      | none => exact ⟨_, .noJson look value⟩
      | some v =>
        have spelled : Spells s path v := ⟨content, look, value⟩
        cases shape : d.check? v with
        | none => exact ⟨_, .misshapen spelled shape⟩
        | some c =>
          cases ended : c.outcome with
          | ok a => exact ⟨_, .value spelled shape ended (sound.valid a)⟩
          | error refusal =>
            have nameless := sound.problem_iff v c shape
            cases refusal with
            | problem p => exact ⟨_, .unnamed spelled shape ((nameless p).mp ended).1⟩
            | issues l =>
              refine ⟨_, .invalid spelled shape (fun named => ?_) ended⟩
              cases ended.symm.trans ((nameless unnamed).mpr ⟨named, rfl⟩)

theorem read_iff (sound : d.Sound) {o : Except StoreFault α} :
    (d.read s path).outcome = o ↔ Ends d s path o := by
  constructor
  · rintro rfl
    obtain ⟨o, ends⟩ := exists_ends sound s path
    rwa [read_of_ends sound ends]
  · exact read_of_ends sound

theorem Ends.absent {resource name : Text} {code : ProblemCode}
    (ends : Ends d s path (.error (.problem (.missing resource name code)))) :
    s.holds path = false := by
  generalize fault : (.error (.problem (.missing resource name code)) : Except StoreFault α) = o
    at ends
  cases ends with
  | missing absent => exact absent
  | _ => cases fault

end Document

end SoundLaw
