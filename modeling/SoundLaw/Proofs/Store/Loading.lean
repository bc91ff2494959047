import SoundLaw.Store.Session
import SoundLaw.Proofs.Rule.Document
import SoundLaw.Proofs.Store.Saving

/-!
What is saved is what is loaded: a configuration survives its way into a file and back, and the
session keeps the settings that say where the file is.
-/
namespace SoundLaw

/-! ### Loading what was saved -/

namespace Store
variable {s after : Store} {path place : Path}

theorem look_of_walk {e : Entry} (walked : s.walk [] path = .ok place)
    (found : s.entryAt? place = some e) : s.look path = .ok e := by
  simp only [look, walked, found, bind, Except.bind, pure, Except.pure]

theorem readConfig_indented {c : Config}
    (fit : ∀ set ∈ c.ruleSets, Json.fitsWord set.order = true)
    (there : s.look path = .ok (.file (.text (Json.indented 0 c.json)))) :
    (s.readConfig path).outcome = .ok c := by
  have read : Json.read? .document (Json.indented 0 c.json) = some c.json :=
    Json.read?_indented (c.plain_json 1017 fit) 0
  have value : s.readJson Resource.config path = .ok c.json := by
    rw [readJson, there]
    dsimp only
    rw [read]
  rw [readConfig, value, Journal.outcome_bind]
  show ((checked Resource.config path (Config.check c.json)) >>= _).outcome = _
  rw [c.check_json]
  rfl

theorem loadConfig_saved {ε : Type} {fault : StoreFault → ε} {disk : Disk ε} {rulesFile : Text}
    {project language : Path} {c : Config} {saved : Journal ε Path}
    (run : saveConfigOn fault disk rulesFile s project language c = (after, saved))
    (done : saved.outcome = .ok path) :
    (loadConfig rulesFile after project language).outcome = .ok c := by
  obtain ⟨grown, _, _, _, same, cases⟩ :=
    saveConfigOn_cases fault disk rulesFile s project language c
  obtain ⟨rfl, rfl⟩ := Prod.mk.inj (same.symm.trans run)
  rcases cases with ⟨_, fit, place, replaced⟩ | ⟨⟨e, failed⟩, _⟩
  · have entry := replaced.entries place
    rw [if_pos rfl] at entry
    have there := look_of_walk replaced.leads entry
    rw [loadConfig]
    rw [if_pos (by rw [holds, there]; rfl)]
    exact readConfig_indented fit there
  · cases failed.symm.trans done

end Store

/-! ### Sessions -/

namespace Session
variable {s after : Session} {project language path : Path} {c : Config} {saved : Stored Path}

/-- A saving ends when the directory or the settings are missing, or it is one of the store with
its directory made, and the settings stay. -/
theorem saveConfig_cases (run : s.saveConfig project language c = (after, saved)) :
    ((∃ fault, saved.outcome = .error fault) ∧
      after.store = (s.store.makeDirectories (Path.join project language)).1) ∨
    ∃ settings, after.settings = some settings ∧
      Store.saveConfig settings.rulesFile
        (s.store.makeDirectories (Path.join project language)).1 project language c =
          (after.store, saved) := by
  rw [saveConfig] at run
  cases made : s.store.makeDirectories (Path.join project language) with
  | mk store outcome =>
    rw [made] at run
    cases outcome with
    | error f =>
      obtain ⟨rfl, rfl⟩ := Prod.mk.inj run
      exact Or.inl ⟨⟨_, rfl⟩, rfl⟩
    | ok _ =>
      dsimp only at run
      cases current : s.currentSettings with
      | error fault =>
        rw [current] at run
        obtain ⟨rfl, rfl⟩ := Prod.mk.inj run
        exact Or.inl ⟨⟨_, rfl⟩, rfl⟩
      | ok settings =>
        rw [current] at run
        obtain ⟨rfl, rfl⟩ := Prod.mk.inj run
        exact Or.inr ⟨settings, by rw [settled, current]; rfl, rfl⟩

/-- A saving that fails leaves all files as they were, also where the settings are to blame. -/
theorem saveConfig_failed {fault : StoreFault}
    (run : s.saveConfig project language c = (after, saved))
    (failed : saved.outcome = .error fault) (p : Path) :
    after.store.file? p = s.store.file? p := by
  have grows : Store.Grows _ s.store (s.store.makeDirectories (Path.join project language)).1 :=
    Store.makeFrom_grows id .sound false s.store [] (Path.join project language)
  rcases saveConfig_cases run with ⟨_, made⟩ | ⟨settings, _, saving⟩
  · rw [made]
    exact grows.file?_eq p
  · obtain ⟨grown, _, _, grows', same, cases⟩ := Store.saveConfigOn_cases id .sound
      settings.rulesFile (s.store.makeDirectories (Path.join project language)).1 project language c
    obtain ⟨rfl, rfl⟩ := Prod.mk.inj (same.symm.trans saving)
    rcases cases with ⟨done, _⟩ | ⟨_, unchanged⟩
    · cases done.symm.trans failed
    · exact (Store.file?_congr (unchanged p)).trans ((grows'.file?_eq p).trans (grows.file?_eq p))

theorem saveConfig_ok_iff (s : Session) (project language : Path) (c : Config) :
    (∃ path, (s.saveConfig project language c).2.outcome = .ok path) ↔
      ∃ settings, s.currentSettings = .ok settings ∧
        Store.Savable settings.rulesFile s.store project language c := by
  have noFile := Store.makeFrom_sound_ok_iff (id : FileFault → FileFault) false s.store []
    (Path.join project language)
  rw [saveConfig, Store.makeDirectories]
  cases made : Store.makeFrom (id : FileFault → FileFault) .sound false s.store []
      (Path.join project language) with
  | mk store outcome =>
    rw [made] at noFile
    cases outcome with
    | error f => exact ⟨nofun, fun ⟨_, _, savable⟩ => nomatch noFile.mpr savable.noFile⟩
    | ok _ =>
      dsimp only
      cases s.currentSettings with
      | error fault => exact ⟨nofun, nofun⟩
      | ok settings =>
        have savable : Store.Savable settings.rulesFile store project language c ↔ _ :=
          Store.savable_made_iff made (noFile.mp rfl)
        simp only [Except.ok.injEq, exists_eq_left', ← savable,
          ← Store.saveConfigOn_sound_iff id settings.rulesFile store project language c]
        constructor
        · rintro ⟨path, done⟩
          exact done.trans (congrArg _ (Store.saveConfigOn_path done))
        · exact fun done => ⟨_, done⟩

/-- A session saves what the settings and the store let it save, and loads it again as it was. -/
theorem loadConfig_saveConfig (run : s.saveConfig project language c = (after, saved)) :
    ((∃ path, saved.outcome = .ok path) ↔ ∃ settings, s.currentSettings = .ok settings ∧
      Store.Savable settings.rulesFile s.store project language c) ∧
    ∀ path, saved.outcome = .ok path → (after.loadConfig project language).2.outcome = .ok c := by
  have possible := saveConfig_ok_iff s project language c
  rw [run] at possible
  refine ⟨possible, fun path done => ?_⟩
  rcases saveConfig_cases run with ⟨⟨fault, failed⟩, _⟩ | ⟨settings, kept, saving⟩
  · cases failed.symm.trans done
  · have current : after.currentSettings = .ok settings := by
      rw [currentSettings, kept]
      rfl
    rw [loadConfig, current]
    exact Store.loadConfig_saved saving done

def mixedConfig : Config :=
  { ruleSets := [
      { id := "\"s\\".toList, name := "line\n\u0001".toList, order := 0xffffffffffffffff
        rules := [
          .character { id := ['r'], target := "p t".toList, replacement := "b d".toList },
          .feature
            { id := ['f']
              target := some ⟨["stop".toList], [], fun _ _ => List.not_mem_nil⟩
              replacement := some ⟨["voiced".toList], []⟩ }] }] }

theorem loadConfig_saveConfig_mixed :
    (({} : Session).saveConfig [['p']] [['l']] mixedConfig).2.outcome =
        .ok [['p'], ['l'], "sca_rules.json".toList] ∧
      ((({} : Session).saveConfig [['p']] [['l']] mixedConfig).1.loadConfig
        [['p']] [['l']]).2.outcome = .ok mixedConfig := by
  have saved : (({} : Session).saveConfig [['p']] [['l']] mixedConfig).2.outcome =
      .ok [['p'], ['l'], "sca_rules.json".toList] := by rfl
  exact ⟨saved, (loadConfig_saveConfig (Prod.eta _).symm).2 _ saved⟩

end Session
end SoundLaw
