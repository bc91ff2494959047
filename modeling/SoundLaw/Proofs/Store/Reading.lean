import SoundLaw.Proofs.Store.Documents

/-!
Reading documents in a session, on a system that may refuse it. The settings of a session are in
force before it reads anything and stay, so a loading ends as a reading does, except that a
configuration that is not there is an empty one.
-/
namespace SoundLaw

/-! ### Systems that refuse -/

/-- What a system refuses though its store has nothing against it, with what is reported then: to
tell whether something is at a path, and to give what is in a file. -/
structure Access (ε : Type) where
  tell : Path → Option ε
  give : Path → Option ε

namespace Access
variable {ε α : Type}

def sound : Access ε := ⟨fun _ => none, fun _ => none⟩

/-- What a reading is refused with. Nothing is asked of a path where there is nothing. -/
def refusal? (access : Access ε) (s : Store) (path : Path) : Option ε :=
  (access.tell path).or (if s.holds path then access.give path else none)

def reading (fault : StoreFault → ε) (access : Access ε) (s : Store) (path : Path)
    (work : Stored α) : Journal ε α :=
  match access.refusal? s path with
  | some e => Journal.raise e
  | none => work.mapError fault

/-- An end of work that reads: what it is refused with, or an end of its own. -/
def Ends (fault : StoreFault → ε) (access : Access ε) (s : Store) (path : Path)
    (own : Except StoreFault α → Prop) (o : Except ε α) : Prop :=
  match access.refusal? s path with
  | some e => o = .error e
  | none => ∃ ended, own ended ∧ o = ended.mapError fault

theorem sound_refusal? (s : Store) (path : Path) : (sound : Access ε).refusal? s path = none := by
  simp [refusal?, sound]

theorem sound_reading (s : Store) (path : Path) (work : Stored α) :
    sound.reading id s path work = work := by
  obtain ⟨events, outcome⟩ := work
  rw [reading, sound_refusal?]
  cases outcome <;> rfl

theorem sound_ends_iff {s : Store} {path : Path} {own : Except StoreFault α → Prop}
    {o : Except StoreFault α} : sound.Ends id s path own o ↔ own o := by
  have same (ended : Except StoreFault α) : ended.mapError id = ended := by cases ended <;> rfl
  rw [Access.Ends, sound_refusal?]
  simp only [same, exists_eq_right']

theorem reading_iff {own : Except StoreFault α → Prop} {work : Stored α}
    (ends : ∀ o, work.outcome = o ↔ own o) (fault : StoreFault → ε) (access : Access ε)
    (s : Store) (path : Path) (o : Except ε α) :
    (access.reading fault s path work).outcome = o ↔ access.Ends fault s path own o := by
  rw [reading, Access.Ends]
  cases access.refusal? s path with
  | some e => exact eq_comm
  | none =>
    dsimp only
    rw [Journal.outcome_mapError]
    constructor
    · rintro rfl
      exact ⟨work.outcome, (ends _).mp rfl, rfl⟩
    · rintro ⟨own, ended, rfl⟩
      rw [(ends own).mpr ended]

end Access

/-! ### Errors of the package and of the system -/

def StoreFault.Told : StoreFault → Prop
  | .problem _ | .file _ => True
  | _ => False

theorem Document.Ends.told {α : Type} {d : Document α} {s : Store} {path : Path} {f : StoreFault}
    (ends : d.Ends s path (.error f)) : f.Told := by
  generalize ended : (.error f : Except StoreFault α) = o at ends
  cases ends <;> cases ended <;> trivial

namespace Access
variable {ε α : Type} {fault : StoreFault → ε} {access : Access ε} {s : Store} {path : Path}
  {own : Except StoreFault α → Prop}

/-- Work that ends in just these ways, and in no errors but those that the system refuses it with
and those of the package and of files. -/
def Tells (fault : StoreFault → ε) (access : Access ε) (s : Store) (path : Path)
    (own : Except StoreFault α → Prop) (work : Journal ε α) : Prop :=
  (∀ o, work.outcome = o ↔ access.Ends fault s path own o) ∧
    ∀ e, work.outcome = .error e →
      access.refusal? s path = some e ∨ ∃ f : StoreFault, f.Told ∧ e = fault f

theorem tells_reading {work : Stored α} (ends : ∀ o, work.outcome = o ↔ own o)
    (told : ∀ f, own (.error f) → f.Told) :
    access.Tells fault s path own (access.reading fault s path work) := by
  refine ⟨reading_iff ends fault access s path, fun e failed => ?_⟩
  have ended := (reading_iff ends fault access s path _).mp failed
  rw [Access.Ends] at ended
  cases refusal : access.refusal? s path with
  | some first =>
    rw [refusal] at ended
    cases ended
    exact .inl rfl
  | none =>
    rw [refusal] at ended
    obtain ⟨result, mine, same⟩ := ended
    cases result with
    | ok a => cases same
    | error f =>
      cases same
      exact .inr ⟨f, told f mine, rfl⟩

theorem tells_document {d : Document α} {work : Stored α} (sound : d.Sound)
    (read : work.outcome = (d.read s path).outcome) :
    access.Tells fault s path (d.Ends s path) (access.reading fault s path work) := by
  refine tells_reading (fun o => ?_) fun f => Document.Ends.told
  rw [read, Document.read_iff sound]

end Access

/-! ### Loading a configuration -/

/-- How the loading of a configuration ends once its path is known. -/
inductive Store.Loads (s : Store) (path : Path) : Except StoreFault Config → Prop
  | absent (absent : s.holds path = false) : Loads s path (.ok {})
  | present {o : Except StoreFault Config} (there : s.holds path = true)
      (ends : Document.configs.Ends s path o) : Loads s path o

theorem Store.loadConfig_iff {s : Store} {rulesFile : Text} {project language : Path}
    (o : Except StoreFault Config) :
    (s.loadConfig rulesFile project language).outcome = o ↔
      s.Loads (configPath rulesFile project language) o := by
  rw [loadConfig]
  by_cases there : s.holds (configPath rulesFile project language) = true
  · rw [if_pos there, Document.read_config, Document.read_iff Document.configs_sound]
    constructor
    · exact .present there
    · intro loads
      cases loads with
      | absent absent => cases there.symm.trans absent
      | present _ ends => exact ends
  · rw [if_neg there]
    constructor
    · rintro rfl
      exact .absent (Bool.eq_false_iff.mpr there)
    · intro loads
      cases loads with
      | absent => rfl
      | present present => exact absurd present there

theorem Store.Loads.told {s : Store} {path : Path} {f : StoreFault}
    (loads : s.Loads path (.error f)) : f.Told := by
  cases loads with
  | present there ends => exact ends.told

namespace Session
variable {ε : Type} {s s' : Session} {settings : Settings}

def loadConfigOn (fault : StoreFault → ε) (access : Access ε) (s : Session)
    (project language : Path) : Journal ε Config := do
  let settings ← Journal.ofExcept (s.currentSettings.mapError fault)
  access.reading fault s.store (Store.configPath settings.rulesFile project language)
    (s.store.loadConfig settings.rulesFile project language)

theorem loadConfigOn_sound (s : Session) (project language : Path) :
    s.loadConfigOn id .sound project language = (s.loadConfig project language).2 := by
  rw [loadConfigOn, loadConfig]
  cases s.currentSettings with
  | error f => rfl
  | ok settings => exact Access.sound_reading _ _ _

/-! ### Settings in force -/

/-- What happens to a session: the world around it changes, or it loads or saves a
configuration. -/
inductive Step : Session → Session → Prop
  | world (s : Session) (environment : Variables) (store : Store) :
      Step s { s with environment := environment, store := store }
  | load (s : Session) (project language : Path) : Step s (s.loadConfig project language).1
  | save (s : Session) (project language : Path) (c : Config) :
      Step s (s.saveConfig project language c).1

/-- Sessions that the program comes to. It starts by reading the settings, and does not start where
they cannot be read. -/
inductive Reachable : Session → Prop
  | start {s : Session} {settings : Settings} (fresh : s.settings = none)
      (read : s.currentSettings = .ok settings) : Reachable s.settled
  | step {s s' : Session} (reached : Reachable s) (next : Step s s') : Reachable s'

theorem currentSettings_some (kept : s.settings = some settings) :
    s.currentSettings = .ok settings := by
  rw [currentSettings, kept]
  rfl

theorem settled_settings (current : s.currentSettings = .ok settings) :
    s.settled.settings = some settings := by
  rw [settled, current]
  rfl

theorem Step.settings_stay (step : Step s s') (kept : s.settings = some settings) :
    s'.settings = some settings := by
  have current := currentSettings_some kept
  cases step with
  | world environment store => exact kept
  | load project language =>
    rw [loadConfig, current]
    exact settled_settings current
  | save project language c =>
    rw [saveConfig]
    cases s.store.makeDirectories (Path.join project language) with
    | mk store made =>
      cases made with
      | error f => exact kept
      | ok _ =>
        dsimp only
        rw [current]
        exact settled_settings current

/-- In every session that the program comes to settings are in force. -/
theorem Reachable.settings_in_force (reachable : Reachable s) :
    ∃ settings, s.settings = some settings := by
  induction reachable with
  | start fresh read => exact ⟨_, settled_settings read⟩
  | step reached next ih =>
    obtain ⟨settings, kept⟩ := ih
    exact ⟨settings, next.settings_stay kept⟩

/-! ### Readings -/

theorem loadConfig_not_missing (kept : s.settings = some settings) (project language : Path)
    (resource name : Text) (code : ProblemCode) :
    (s.loadConfig project language).2.outcome ≠
      .error (.problem (.missing resource name code)) := by
  rw [loadConfig, currentSettings_some kept]
  intro missing
  cases (Store.loadConfig_iff _).mp missing with
  | present there ends => cases there.symm.trans ends.absent

/-- In every session that the program comes to, on a system that may refuse to tell what is at a
path and to give what is in a file, the reading of a document ends in a valid value, or in an error
of the package or of the system, and what is at the path decides in which. A configuration is loaded
in the same way from the path that the settings in force say, but one that is not there is empty and
never reported as missing. -/
theorem readings_tell_faults (fault : StoreFault → ε) (access : Access ε)
    (reachable : s.Reachable) :
    (∀ path, access.Tells fault s.store path (Document.configs.Ends s.store path)
      (access.reading fault s.store path (s.store.readConfig path))) ∧
    (∀ path, access.Tells fault s.store path (Document.lexicons.Ends s.store path)
      (access.reading fault s.store path (s.store.loadLexicon path))) ∧
    (∀ path, access.Tells fault s.store path (Document.inventories.Ends s.store path)
      (access.reading fault s.store path (s.store.loadInventory path))) ∧
    ∃ settings, s.settings = some settings ∧
      (∀ project language path, Store.configPath settings.rulesFile project language = path →
        access.Tells fault s.store path (s.store.Loads path)
          (s.loadConfigOn fault access project language)) ∧
      ∀ project language resource name code,
        (s.loadConfig project language).2.outcome ≠
          .error (.problem (.missing resource name code)) := by
  obtain ⟨settings, kept⟩ := reachable.settings_in_force
  refine ⟨fun path => ?_, fun path => ?_, fun path => ?_, settings, kept,
    fun project language path placed => ?_, loadConfig_not_missing kept⟩
  · exact Access.tells_document Document.configs_sound (Document.read_config s.store path)
  · refine Access.tells_document Document.lexicons_sound ?_
    rw [Document.read_lexicon]
  · refine Access.tells_document Document.inventories_sound ?_
    rw [Document.read_inventory]
  · subst placed
    rw [loadConfigOn, currentSettings_some kept]
    exact Access.tells_reading Store.loadConfig_iff fun f => Store.Loads.told

def namelessConfig : Json :=
  .object [("rule_sets", .array [.object [("rules", .array [.object []])]])]

def spoiledStore : Store :=
  ⟨[(["rules".toList], .file (.text (Json.indented 0 namelessConfig))),
    (["words".toList], .file (.text (Json.indented 0 (.object [])))),
    (["sounds".toList], .file (.binary [0xff]))]⟩

/-- A session in which the documents were spoiled after its start, with settings that cannot be read
any more. -/
def spoiled : Session :=
  { settled {} with
    environment := [("SOUNDSHIFT_DEBUG".toList, "maybe".toList)], store := spoiledStore }

theorem readings_tell_faults_spoiled :
    spoiled.Reachable ∧
      (spoiled.store.readConfig ["rules".toList]).outcome =
        .error (.problem Fields.unnamed) ∧
      (spoiled.store.loadLexicon ["words".toList]).outcome =
        .error (Document.lexicons.misshapen ["words".toList]) ∧
      (spoiled.store.loadInventory ["sounds".toList]).outcome =
        .error (Document.inventories.noJson ["sounds".toList]) ∧
      (spoiled.loadConfig [['p']] [['l']]).2.outcome = .ok {} := by
  have read : currentSettings {} = .ok {} := rfl
  have reachable : spoiled.Reachable := .step (.start rfl read) (.world _ _ _)
  obtain ⟨config, lexicon, inventory, settings, kept, loads, _⟩ :=
    readings_tell_faults id .sound reachable
  simp only [Access.Tells, Access.sound_reading, Access.sound_ends_iff, loadConfigOn_sound] at *
  have record : Json.Plain .document 1020 (.object []) := .object _ (by simp) (by simp)
  have set : Json.Plain .document 1022 (.object [("rules", .array [.object []])]) :=
    .object _ (by simp) (by simpa using .array _ (by simpa using record))
  have rules : Document.Spells spoiled.store ["rules".toList] namelessConfig :=
    Document.spells_indented
      (.object _ (by simp) (by simpa using .array _ (by simpa using set))) rfl
  have nameless : Config.Nameless namelessConfig :=
    ⟨_, List.mem_cons_self, [], List.mem_cons_self, rfl, .inl rfl⟩
  have words : Document.Spells spoiled.store ["words".toList] (.object []) :=
    Document.spells_indented (.object _ (by simp) (by simp)) rfl
  have sounds : spoiled.store.look ["sounds".toList] = .ok (.file (.binary [0xff])) := rfl
  cases kept
  exact ⟨reachable, ((config _).1 _).mpr (.unnamed rules rfl nameless),
    ((lexicon _).1 _).mpr (.misshapen words rfl), ((inventory _).1 _).mpr (.noJson sounds rfl),
    ((loads _ _ _ rfl).1 _).mpr (.absent rfl)⟩

end Session
end SoundLaw
