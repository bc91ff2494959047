import SoundLaw.Store.Documents
import SoundLaw.Proofs.Store.Basic

/-!
A saving is done whole or not at all, whatever the disk refuses on the way: in the end the path of
the configuration leads to its whole text, or all files are as they were.
-/
namespace SoundLaw.Store
variable {ε : Type} {s after written : Store} {path place p : Path} {t : Text}

theorem target_eq_ok : s.target path = .ok place ↔
    s.walk [] path = .ok place ∧ s.entryAt? place ≠ some .directory := by
  cases walked : s.walk [] path with
  | error f => simp [target, walked, bind, Except.bind]
  | ok q =>
    cases found : s.entryAt? q with
    | none =>
      simp only [target, walked, found, bind, Except.bind, pure, Except.pure, Except.ok.injEq]
      exact ⟨by rintro rfl; simp [found], And.left⟩
    | some e =>
      cases e with
      | directory =>
        simp only [target, walked, found, bind, Except.bind, Except.ok.injEq]
        exact ⟨nofun, by rintro ⟨rfl, other⟩; exact absurd found other⟩
      | file content =>
        simp only [target, walked, found, bind, Except.bind, pure, Except.pure, Except.ok.injEq]
        exact ⟨by rintro rfl; simp [found], And.left⟩

/-- A path leads to a place that holds a text now, where no directory was; nothing else differs. -/
structure Replaced (s after : Store) (path place : Path) (t : Text) : Prop where
  leads : after.walk [] path = .ok place
  noDirectory : s.entryAt? place ≠ some .directory
  entries : ∀ p, after.entryAt? p = if p = place then some (.file (.text t)) else s.entryAt? p

theorem Replaced.file?_eq (replaced : Replaced s after path place t) (p : Path) :
    after.file? p = if p = place then some (.text t) else s.file? p := by
  have entry := replaced.entries p
  by_cases here : p = place
  · rw [if_pos here] at entry ⊢
    rw [file?, entry]
  · rw [if_neg here] at entry ⊢
    exact file?_congr entry

theorem Replaced.directory_iff (replaced : Replaced s after path place t) (p : Path) :
    after.entryAt? p = some .directory ↔ s.entryAt? p = some .directory := by
  have entry := replaced.entries p
  by_cases here : p = place
  · subst here
    rw [entry, if_pos rfl]
    exact ⟨nofun, fun there => absurd there replaced.noDirectory⟩
  · rw [entry, if_neg here]

theorem Replaced.target_eq (replaced : Replaced s after path place t) :
    s.target path = .ok place := by
  refine target_eq_ok.mpr ⟨walk_congr (fun p there => ?_) replaced.leads, replaced.noDirectory⟩
  exact (replaced.directory_iff p).mp there

theorem directory_put_iff {source : Path} (free : s.entryAt? source = none) (content : Content)
    (p : Path) : (s.put source (.file content)).entryAt? p = some .directory ↔
      s.entryAt? p = some .directory := by
  have inside : source ≠ [] := ne_nil_of_entryAt? (by rw [free]; nofun)
  rw [entryAt?_put _ _ inside]
  by_cases here : p = source
  · rw [if_pos here, here, free]
    exact ⟨nofun, nofun⟩
  · rw [if_neg here]

/-- Moving a file that was written where nothing was leaves no trace of where it was written. -/
theorem move_replaces {source : Path} {content : Content} (free : s.entryAt? source = none)
    (moved : (s.put source (.file content)).move source path (.text t) = .ok after) :
    ∃ place, Replaced s after path place t := by
  have directories := directory_put_iff free content
  cases found : (s.put source (.file content)).target path with
  | error f => simp [move, found, bind, Except.bind] at moved
  | ok place =>
    simp only [move, found, bind, Except.bind, pure, Except.pure, Except.ok.injEq] at moved
    obtain ⟨walked, other⟩ := target_eq_ok.mp found
    have entries (p : Path) : after.entryAt? p =
        if p = place then some (.file (.text t)) else s.entryAt? p := by
      rw [← moved, entryAt?_put _ _ (ne_nil_of_entryAt? other), entryAt?_put_drop _ free]
    refine ⟨place, walk_congr (fun p there => ?_) walked, mt (directories place).mpr other, entries⟩
    have apart : p ≠ place := fun same => other (same ▸ there)
    rw [entries, if_neg apart]
    exact (directories p).mp there

theorem replaceFileOn_cases (fault : FileFault → ε) (disk : Disk ε) (s : Store)
    (directory path : Path) (t : Text) :
    ∃ after outcome, s.replaceFileOn fault disk directory path t = (after, outcome) ∧
      (outcome = .ok () ∧ (∃ place, Replaced s after path place t) ∨
       (∃ e, outcome = .error e) ∧ ∀ p, after.entryAt? p = s.entryAt? p) := by
  rw [replaceFileOn]
  cases walked : s.walk [] (directory ++ [s.unusedName ".sca_rules." ".tmp"]) with
  | error f => exact ⟨_, _, rfl, Or.inr ⟨⟨_, rfl⟩, fun p => rfl⟩⟩
  | ok source =>
    have free := unused_place walked
    dsimp only
    cases disk.create source with
    | some e => exact ⟨_, _, rfl, Or.inr ⟨⟨_, rfl⟩, fun p => rfl⟩⟩
    | none =>
      cases disk.fill source with
      | some broken => exact ⟨_, _, rfl, Or.inr ⟨⟨_, rfl⟩, entryAt?_put_drop _ free⟩⟩
      | none =>
        dsimp only
        cases disk.move source path with
        | some e => exact ⟨_, _, rfl, Or.inr ⟨⟨_, rfl⟩, entryAt?_put_drop _ free⟩⟩
        | none =>
          cases moved : (s.put source (.file (.text t))).move source path (.text t) with
          | error f => exact ⟨_, _, rfl, Or.inr ⟨⟨_, rfl⟩, entryAt?_put_drop _ free⟩⟩
          | ok after => exact ⟨_, _, rfl, Or.inl ⟨rfl, move_replaces free moved⟩⟩

theorem replaceFileOn_sound (fault : FileFault → ε) {directory q : Path}
    (walked : s.walk [] directory = .ok q) (there : s.entryAt? q = some .directory) :
    (s.replaceFileOn fault .sound directory path t).2 = .ok () ↔
      ∃ place, s.target path = .ok place := by
  constructor
  · intro done
    obtain ⟨after, outcome, run, cases⟩ := replaceFileOn_cases fault .sound s directory path t
    rw [run] at done
    rcases cases with ⟨_, place, replaced⟩ | ⟨⟨e, failed⟩, _⟩
    · exact ⟨place, replaced.target_eq⟩
    · cases failed.symm.trans done
  · rintro ⟨place, free⟩
    obtain ⟨leads, other⟩ := target_eq_ok.mp free
    have named : s.walk [] (directory ++ [s.unusedName ".sca_rules." ".tmp"]) =
        .ok (next q (s.unusedName ".sca_rules." ".tmp")) :=
      walk_append walked (walk_cons_eq_ok.mpr ⟨there, rfl⟩)
    have unused := unused_place named
    rw [replaceFileOn, named]
    generalize next q (s.unusedName ".sca_rules." ".tmp") = source at unused
    have directories := directory_put_iff unused (.text t)
    have stillFree : (s.put source (.file (.text t))).target path = .ok place := target_eq_ok.mpr
      ⟨walk_congr (fun p there => (directories p).mpr there) leads, mt (directories place).mp other⟩
    have moved : (s.put source (.file (.text t))).move source path (.text t) =
        .ok (((s.put source (.file (.text t))).drop source).put place (.file (.text t))) := by
      rw [move, stillFree]
      rfl
    dsimp only [Disk.sound]
    rw [moved]

theorem fitsWord_iff (n : Int) :
    Json.fitsWord n = true ↔ -0x8000000000000000 ≤ n ∧ n < 0x10000000000000000 := by
  simp [Json.fitsWord]

theorem configText?_eq_some {c : Config} (written : configText? c = some t) :
    (∀ set ∈ c.ruleSets, Json.fitsWord set.order = true) ∧ t = Json.indented 0 c.json := by
  rw [configText?] at written
  split at written
  · exact ⟨List.all_eq_true.mp ‹_›, (Option.some.inj written).symm⟩
  · cases written

/-- A rules file whose name is not that of an absolute path lies below the language's directory. -/
theorem onWay_configPath {rulesFile : Text} {project language : Path}
    (below : Path.isAbsolute (Path.ofText rulesFile) = false)
    (listed : p ∈ onWay [] (Path.join project language)) :
    p ∈ onWay [] (configPath rulesFile project language) := by
  have path : configPath rulesFile project language =
      Path.join project language ++ Path.ofText rulesFile := by
    rw [configPath, Path.join, below]
    rfl
  obtain ⟨later, split⟩ := onWay_append [] (Path.join project language) (Path.ofText rulesFile)
  rw [path, split]
  exact List.mem_append_left later listed

/-- A saving, its directories apart. -/
theorem saveConfigOn_cases (fault : StoreFault → ε) (disk : Disk ε) (rulesFile : Text) (s : Store)
    (project language : Path) (c : Config) :
    ∃ grown after saved, Grows (onWay [] (Path.join project language)) s grown ∧
      saveConfigOn fault disk rulesFile s project language c = (after, saved) ∧
      (saved.outcome = .ok (configPath rulesFile project language) ∧
        (∀ set ∈ c.ruleSets, Json.fitsWord set.order = true) ∧
        (∃ place, Replaced grown after (configPath rulesFile project language) place
          (Json.indented 0 c.json)) ∨
       (∃ e, saved.outcome = .error e) ∧ ∀ p, after.entryAt? p = grown.entryAt? p) := by
  have grows := makeFrom_grows (fun f => fault (.file f)) disk false s []
    (Path.join project language)
  rw [saveConfigOn]
  cases made : makeFrom (fun f => fault (.file f)) disk false s [] (Path.join project language) with
  | mk grown outcome =>
    rw [made] at grows
    cases outcome with
    | error e => exact ⟨grown, _, _, grows, rfl, Or.inr ⟨⟨e, rfl⟩, fun p => rfl⟩⟩
    | ok _ =>
      dsimp only
      cases written : configText? c with
      | none => exact ⟨grown, _, _, grows, rfl, Or.inr ⟨⟨_, rfl⟩, fun p => rfl⟩⟩
      | some t =>
        obtain ⟨fit, rfl⟩ := configText?_eq_some written
        obtain ⟨after, outcome, run, cases⟩ := replaceFileOn_cases (fun f => fault (.file f)) disk
          grown (Path.join project language) (configPath rulesFile project language)
          (Json.indented 0 c.json)
        dsimp only
        rw [run]
        rcases cases with ⟨rfl, replaced⟩ | ⟨⟨e, rfl⟩, same⟩
        · exact ⟨grown, _, _, grows, rfl, Or.inl ⟨rfl, fit, replaced⟩⟩
        · exact ⟨grown, _, _, grows, rfl, Or.inr ⟨⟨e, rfl⟩, same⟩⟩

theorem saveConfigOn_path {fault : StoreFault → ε} {disk : Disk ε} {rulesFile : Text}
    {project language : Path} {c : Config}
    (done : (saveConfigOn fault disk rulesFile s project language c).2.outcome = .ok path) :
    path = configPath rulesFile project language := by
  obtain ⟨_, _, _, _, run, cases⟩ := saveConfigOn_cases fault disk rulesFile s project language c
  rw [run] at done
  rcases cases with ⟨answer, _⟩ | ⟨⟨_, failed⟩, _⟩
  · exact Except.ok.inj (done.symm.trans answer)
  · cases failed.symm.trans done

/-- What a saving needs: no file on the way to the directory, orders of 64 bits, and a way to the
file through directories that are there or made, at whose end there is none and none is made. -/
structure Savable (rulesFile : Text) (s : Store) (project language : Path) (c : Config) :
    Prop where
  noFile : ∀ p ∈ onWay [] (Path.join project language), ∀ content,
    s.entryAt? p ≠ some (.file content)
  fits : ∀ set ∈ c.ruleSets, -0x8000000000000000 ≤ set.order ∧ set.order < 0x10000000000000000
  passable : ∀ p ∈ passed [] (configPath rulesFile project language),
    s.entryAt? p = some .directory ∨ p ∈ onWay [] (Path.join project language)
  noDirectory : ¬ (s.entryAt? ((configPath rulesFile project language).foldl next []) =
    some .directory ∨
      (configPath rulesFile project language).foldl next [] ∈ onWay [] (Path.join project language))

theorem target_made_iff {fault : FileFault → ε} {disk : Disk ε} {directory : Path} {made : Store}
    (run : makeFrom fault disk false s [] directory = (made, .ok ())) (path : Path) :
    (∃ place, made.target path = .ok place) ↔
      (∀ p ∈ passed [] path, s.entryAt? p = some .directory ∨ p ∈ onWay [] directory) ∧
        ¬ (s.entryAt? (path.foldl next []) = some .directory ∨
          path.foldl next [] ∈ onWay [] directory) := by
  simp only [target_eq_ok, walk_eq_ok_iff, ne_eq, makeFrom_directory_iff run]
  constructor
  · rintro ⟨_, ⟨all, rfl⟩, other⟩
    exact ⟨all, other⟩
  · rintro ⟨all, other⟩
    exact ⟨_, ⟨all, rfl⟩, other⟩

theorem savable_made_iff {fault : FileFault → ε} {disk : Disk ε} {rulesFile : Text}
    {project language : Path} {c : Config} {made : Store}
    (run : makeFrom fault disk false s [] (Path.join project language) = (made, .ok ()))
    (noFile : ∀ p ∈ onWay [] (Path.join project language), ∀ content,
      s.entryAt? p ≠ some (.file content)) :
    Savable rulesFile made project language c ↔ Savable rulesFile s project language c := by
  have directory := makeFrom_directory_iff run
  constructor
  · rintro ⟨_, fits, passable, noDirectory⟩
    simp only [directory, or_assoc, or_self] at passable noDirectory
    exact ⟨noFile, fits, passable, noDirectory⟩
  · rintro ⟨_, fits, passable, noDirectory⟩
    refine ⟨fun p listed content there => ?_, fits, ?_, ?_⟩
    · rw [makeFrom_directories run p listed] at there
      cases there
    · simpa only [directory, or_assoc, or_self] using passable
    · simpa only [directory, or_assoc, or_self] using noDirectory

theorem saveConfigOn_sound_iff (fault : StoreFault → ε) (rulesFile : Text) (s : Store)
    (project language : Path) (c : Config) :
    (saveConfigOn fault .sound rulesFile s project language c).2.outcome =
      .ok (configPath rulesFile project language) ↔ Savable rulesFile s project language c := by
  have noFile := makeFrom_sound_ok_iff (fun f => fault (.file f)) false s []
    (Path.join project language)
  rw [saveConfigOn]
  cases run : makeFrom (fun f => fault (.file f)) .sound false s []
      (Path.join project language) with
  | mk made outcome =>
    rw [run] at noFile
    cases outcome with
    | error e => exact ⟨nofun, fun savable => nomatch noFile.mpr savable.noFile⟩
    | ok _ =>
      obtain ⟨q, walked, there⟩ := walk_onWay (entryAt?_root made) (makeFrom_directories run)
      have target := target_made_iff run (configPath rulesFile project language)
      dsimp only
      cases written : configText? c with
      | none =>
        refine ⟨nofun, fun savable => ?_⟩
        have fit : ∀ set ∈ c.ruleSets, Json.fitsWord set.order = true := fun set listed =>
          (fitsWord_iff set.order).mpr (savable.fits set listed)
        rw [configText?, if_pos (List.all_eq_true.mpr fit)] at written
        cases written
      | some t =>
        obtain ⟨fit, rfl⟩ := configText?_eq_some written
        have sound : (made.replaceFileOn (fun f => fault (.file f)) .sound
            (Path.join project language) (configPath rulesFile project language)
            (Json.indented 0 c.json)).2 = .ok () ↔ _ := replaceFileOn_sound _ walked there
        dsimp only
        cases replaced : made.replaceFileOn (fun f => fault (.file f)) .sound
            (Path.join project language) (configPath rulesFile project language)
            (Json.indented 0 c.json) with
        | mk after outcome =>
          rw [replaced, target] at sound
          cases outcome with
          | error e =>
            exact ⟨nofun, fun savable =>
              nomatch sound.mpr ⟨savable.passable, savable.noDirectory⟩⟩
          | ok _ =>
            obtain ⟨passable, noDirectory⟩ := sound.mp rfl
            exact ⟨fun _ => ⟨noFile.mp rfl, fun set listed =>
              (fitsWord_iff set.order).mp (fit set listed), passable, noDirectory⟩, fun _ => rfl⟩

/-- Whatever a disk refuses, and whatever is there: either the path of the configuration is the
answer and leads to a file with its whole text, and no other file differs, or there is an error and
no file differs. Directories stay, and one that is new lies on the way to the language's directory,
so on the way to the file unless the name of the rules file is that of an absolute path. A disk
that refuses nothing lets everything be saved that can be. -/
theorem saveConfigOn_all_or_nothing (fault : StoreFault → ε) (disk : Disk ε) (rulesFile : Text)
    (s : Store) (project language : Path) (c : Config) :
    ∃ after saved, saveConfigOn fault disk rulesFile s project language c = (after, saved) ∧
      (saved.outcome = .ok (configPath rulesFile project language) ∧
        (∀ set ∈ c.ruleSets, -0x8000000000000000 ≤ set.order ∧ set.order < 0x10000000000000000) ∧
        (∃ place, after.walk [] (configPath rulesFile project language) = .ok place ∧
          s.entryAt? place ≠ some .directory ∧
          ∀ p, after.file? p =
            if p = place then some (.text (Json.indented 0 c.json)) else s.file? p) ∨
       (∃ e, saved.outcome = .error e) ∧ ∀ p, after.file? p = s.file? p) ∧
      (∀ p, (s.entryAt? p = some .directory → after.entryAt? p = some .directory) ∧
        (after.entryAt? p = some .directory → s.entryAt? p = some .directory ∨
          s.entryAt? p = none ∧ p ∈ onWay [] (Path.join project language) ∧
            (Path.isAbsolute (Path.ofText rulesFile) = false →
              p ∈ onWay [] (configPath rulesFile project language)))) ∧
      (disk = .sound → (saved.outcome = .ok (configPath rulesFile project language) ↔
        Savable rulesFile s project language c)) := by
  obtain ⟨grown, after, saved, grows, run, cases⟩ :=
    saveConfigOn_cases fault disk rulesFile s project language c
  have directories (p : Path) :
      after.entryAt? p = some .directory ↔ grown.entryAt? p = some .directory := by
    rcases cases with ⟨_, _, place, replaced⟩ | ⟨_, same⟩
    · exact replaced.directory_iff p
    · rw [same p]
  refine ⟨after, saved, run, ?_, fun p => ⟨fun there => ?_, fun there => ?_⟩, ?_⟩
  · rcases cases with ⟨answer, fit, place, replaced⟩ | ⟨failed, same⟩
    · have bounds (set : RuleSet) (listed : set ∈ c.ruleSets) :=
        (fitsWord_iff set.order).mp (fit set listed)
      have other : s.entryAt? place ≠ some .directory := fun there =>
        replaced.noDirectory (grows.directory_stays there)
      have files (p : Path) : after.file? p =
          if p = place then some (.text (Json.indented 0 c.json)) else s.file? p := by
        rw [replaced.file?_eq, grows.file?_eq]
      exact Or.inl ⟨answer, bounds, place, replaced.leads, other, files⟩
    · exact Or.inr ⟨failed, fun p => (file?_congr (same p)).trans (grows.file?_eq p)⟩
  · exact (directories p).mpr (grows.directory_stays there)
  · rcases grows.directory_listed ((directories p).mp there) with old | ⟨free, listed⟩
    · exact Or.inl old
    · exact Or.inr ⟨free, listed, fun below => onWay_configPath below listed⟩
  · rintro rfl
    rw [← saveConfigOn_sound_iff fault, run]

/-- The rules file may lie elsewhere than the directory that is made for it. -/
theorem saveConfig_makes_directories_elsewhere :
    ¬ ∀ (rulesFile : Text) (s : Store) (project language : Path) (c : Config) (p : Path),
      (saveConfig rulesFile s project language c).1.entryAt? p = some .directory →
        s.entryAt? p = some .directory ∨ p ∈ onWay [] (configPath rulesFile project language) := by
  intro always
  have made := always "/no/such/rules.json".toList {} [['p']] [['l']] {} [['p']] (by decide +kernel)
  revert made
  decide +kernel

end SoundLaw.Store
