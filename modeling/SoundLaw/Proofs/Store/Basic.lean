import SoundLaw.Store.Basic
import Mathlib.Data.List.Basic

/-!
Stores place by place: what is found after an entry was put or dropped, what a walk depends on, and
what making directories leaves as it was. A file that is named anew gets a place of its own.
-/
namespace SoundLaw.Store
variable {s after : Store} {p q place : Path}

/-! ### Entries -/

theorem entryAt?_root (s : Store) : s.entryAt? [] = some .directory := rfl

theorem entryAt?_eq_find? (s : Store) (inside : p ≠ []) : s.entryAt? p = find? p s.entries := by
  rw [entryAt?, if_neg (by simpa using inside)]

theorem ne_nil_of_entryAt? (other : s.entryAt? p ≠ some .directory) : p ≠ [] := by
  rintro rfl
  exact other (entryAt?_root s)

def file? (s : Store) (place : Path) : Option Content :=
  match s.entryAt? place with
  | some (.file content) => some content
  | _ => none

theorem file?_congr (same : after.entryAt? p = s.entryAt? p) : after.file? p = s.file? p := by
  rw [file?, file?, same]

theorem find?_setEntry (p q : Path) (e : Entry) (l : List (Path × Entry)) :
    find? q (setEntry p e l) = if q = p then some e else find? q l := by
  induction l with
  | nil => simp [setEntry, find?, eq_comm]
  | cons entry rest ih =>
    obtain ⟨r, old⟩ := entry
    by_cases here : r = p
    · subst here
      by_cases same : r = q
      · simp [setEntry, find?, same]
      · simp [setEntry, find?, same, Ne.symm same]
    · by_cases same : r = q
      · subst same
        simp [setEntry, find?, here]
      · simp [setEntry, find?, here, same, ih]

theorem find?_drop (p q : Path) (l : List (Path × Entry)) :
    find? q (l.filter fun e => e.1 ≠ p) = if q = p then none else find? q l := by
  induction l with
  | nil => simp [find?]
  | cons entry rest ih =>
    obtain ⟨r, old⟩ := entry
    by_cases here : r = p
    · subst here
      rw [List.filter_cons_of_neg (by simp), ih]
      by_cases same : r = q
      · simp [same]
      · simp [find?, same, Ne.symm same]
    · rw [List.filter_cons_of_pos (by simpa using here), find?, ih]
      by_cases same : r = q
      · subst same
        simp [find?, here]
      · simp [find?, same]

theorem entryAt?_put (s : Store) (e : Entry) (inside : p ≠ []) (q : Path) :
    (s.put p e).entryAt? q = if q = p then some e else s.entryAt? q := by
  by_cases root : q = []
  · subst root
    rw [entryAt?_root, entryAt?_root, if_neg inside.symm]
  · rw [entryAt?_eq_find? _ root, entryAt?_eq_find? _ root, put, find?_setEntry]

theorem entryAt?_drop (s : Store) (inside : p ≠ []) (q : Path) :
    (s.drop p).entryAt? q = if q = p then none else s.entryAt? q := by
  by_cases root : q = []
  · subst root
    rw [entryAt?_root, entryAt?_root, if_neg inside.symm]
  · rw [entryAt?_eq_find? _ root, entryAt?_eq_find? _ root, drop, find?_drop]

theorem entryAt?_put_drop (e : Entry) (free : s.entryAt? p = none) (q : Path) :
    ((s.put p e).drop p).entryAt? q = s.entryAt? q := by
  have inside : p ≠ [] := ne_nil_of_entryAt? (by rw [free]; nofun)
  rw [entryAt?_drop _ inside, entryAt?_put s e inside]
  by_cases same : q = p
  · rw [if_pos same, same, free]
  · rw [if_neg same, if_neg same]

/-! ### Walks -/

theorem walk_cons_eq_ok {name : Text} {rest : Path} : s.walk place (name :: rest) = .ok q ↔
    s.entryAt? place = some .directory ∧ s.walk (next place name) rest = .ok q := by
  rw [walk]
  cases s.entryAt? place with
  | none => simp
  | some e => cases e <;> simp

def passed : Path → Path → List Path
  | _, [] => []
  | place, name :: rest => place :: passed (next place name) rest

theorem walk_eq_ok_iff {names : Path} : s.walk place names = .ok q ↔
    (∀ p ∈ passed place names, s.entryAt? p = some .directory) ∧ q = names.foldl next place := by
  induction names generalizing place with
  | nil => simp [walk, passed, eq_comm]
  | cons name rest ih =>
    rw [walk_cons_eq_ok, ih, passed, List.forall_mem_cons, List.foldl_cons, and_assoc]

/-- A walk leads to the same place wherever the directories still are. -/
theorem walk_congr {names : Path}
    (kept : ∀ p, s.entryAt? p = some .directory → after.entryAt? p = some .directory)
    (walked : s.walk place names = .ok q) : after.walk place names = .ok q := by
  obtain ⟨all, ends⟩ := walk_eq_ok_iff.mp walked
  exact walk_eq_ok_iff.mpr ⟨fun p listed => kept p (all p listed), ends⟩

theorem walk_append {names more : Path} (walked : s.walk place names = .ok q)
    (further : s.walk q more = .ok p) : s.walk place (names ++ more) = .ok p := by
  induction names generalizing place with
  | nil => rwa [Except.ok.inj walked]
  | cons name rest ih =>
    obtain ⟨there, on⟩ := walk_cons_eq_ok.mp walked
    exact walk_cons_eq_ok.mpr ⟨there, ih on⟩

theorem walk_last {names : Path} {name : Text} (walked : s.walk place (names ++ [name]) = .ok q) :
    ∃ d, q = next d name := by
  have ends := (walk_eq_ok_iff.mp walked).2
  rw [List.foldl_append] at ends
  exact ⟨names.foldl next place, ends⟩

/-! ### Names of their own -/

theorem le_foldl_max {n : Nat} {l : List Nat} (member : n ∈ l) (start : Nat) :
    n ≤ l.foldl max start := by
  have grows (l : List Nat) (start : Nat) : start ≤ l.foldl max start := by
    induction l generalizing start with
    | nil => exact Nat.le_refl start
    | cons m rest ih => exact Nat.le_trans (Nat.le_max_left start m) (ih (max start m))
  induction l generalizing start with
  | nil => cases member
  | cons m rest ih =>
    rcases List.mem_cons.mp member with rfl | later
    · exact Nat.le_trans (Nat.le_max_right start n) (grows rest (max start n))
    · exact ih later (max start m)

theorem unusedName_ne_up (s : Store) (start finish : Text) :
    s.unusedName start finish ≠ Path.up := by
  intro same
  have marked : 'x' ∈ s.unusedName start finish := by simp [unusedName]
  rw [same] at marked
  exact absurd marked (by decide)

theorem unusedName_not_mem {e : Entry} (start finish : Text) (stored : (p, e) ∈ s.entries) :
    s.unusedName start finish ∉ p := by
  intro used
  have inPath := le_foldl_max (List.mem_map_of_mem (f := List.length) used) 0
  have inStore : (p.map List.length).foldl max 0 ≤ _ := le_foldl_max
    (List.mem_map_of_mem (f := fun e : Path × Entry => (e.1.map List.length).foldl max 0) stored) 0
  simp only [unusedName, List.length_append, List.length_replicate] at inPath
  omega

theorem mem_of_find? {e : Entry} {l : List (Path × Entry)} (found : find? p l = some e) :
    (p, e) ∈ l := by
  induction l with
  | nil => cases found
  | cons entry rest ih =>
    obtain ⟨r, old⟩ := entry
    by_cases same : r = p
    · subst same
      rw [find?, if_pos rfl, Option.some.injEq] at found
      rw [found]
      exact List.mem_cons_self
    · rw [find?, if_neg same] at found
      exact List.mem_cons_of_mem _ (ih found)

theorem unused_place {names : Path} {start finish : Text}
    (walked : s.walk [] (names ++ [s.unusedName start finish]) = .ok place) :
    s.entryAt? place = none := by
  obtain ⟨d, rfl⟩ := walk_last walked
  rw [next, if_neg (unusedName_ne_up s start finish), entryAt?_eq_find? s (by simp)]
  cases found : find? (d ++ [s.unusedName start finish]) s.entries with
  | none => rfl
  | some e => exact absurd (by simp) (unusedName_not_mem start finish (mem_of_find? found))

/-! ### Directories made -/

def onWay : Path → Path → List Path
  | _, [] => []
  | place, name :: rest => next place name :: onWay (next place name) rest

/-- A store to which nothing came but directories, at these places, where nothing was. -/
def Grows (places : List Path) (s after : Store) : Prop :=
  ∀ p, after.entryAt? p = s.entryAt? p ∨
    (s.entryAt? p = none ∧ after.entryAt? p = some .directory ∧ p ∈ places)

variable {places more : List Path}

theorem Grows.rest (grows : Grows places s after) : Grows (p :: places) s after := by
  intro q
  rcases grows q with same | ⟨free, made, listed⟩
  · exact Or.inl same
  · exact Or.inr ⟨free, made, List.mem_cons_of_mem p listed⟩

theorem Grows.of_put (free : s.entryAt? p = none)
    (grows : Grows places (s.put p .directory) after) : Grows (p :: places) s after := by
  have inside : p ≠ [] := ne_nil_of_entryAt? (by rw [free]; nofun)
  intro q
  have before := entryAt?_put s .directory inside q
  by_cases here : q = p
  · rw [if_pos here] at before
    subst here
    rcases grows q with same | ⟨absent, _, _⟩
    · exact Or.inr ⟨free, same.trans before, List.mem_cons_self⟩
    · rw [before] at absent
      cases absent
  · rw [if_neg here] at before
    have rest := Grows.rest (p := p) grows q
    rwa [before] at rest

theorem Grows.file?_eq (grows : Grows places s after) (p : Path) : after.file? p = s.file? p := by
  rcases grows p with same | ⟨free, made, _⟩
  · rw [file?, file?, same]
  · rw [file?, file?, free, made]

theorem Grows.directory_stays (grows : Grows places s after)
    (there : s.entryAt? p = some .directory) : after.entryAt? p = some .directory := by
  rcases grows p with same | ⟨free, _, _⟩
  · rw [same, there]
  · rw [there] at free
    cases free

theorem Grows.directory_listed (grows : Grows places s after)
    (there : after.entryAt? p = some .directory) :
    s.entryAt? p = some .directory ∨ s.entryAt? p = none ∧ p ∈ places := by
  rcases grows p with same | ⟨free, _, listed⟩
  · exact Or.inl (same.symm.trans there)
  · exact Or.inr ⟨free, listed⟩

theorem onWay_append (place names more : Path) :
    ∃ later, onWay place (names ++ more) = onWay place names ++ later := by
  induction names generalizing place with
  | nil => exact ⟨onWay place more, rfl⟩
  | cons name rest ih =>
    obtain ⟨later, split⟩ := ih (next place name)
    exact ⟨later, congrArg (next place name :: ·) split⟩

theorem makeFrom_grows {ε : Type} (fault : FileFault → ε) (disk : Disk ε) (made : Bool) (s : Store)
    (place names : Path) :
    Grows (onWay place names) s (makeFrom fault disk made s place names).1 := by
  induction names generalizing made s place with
  | nil => exact fun p => Or.inl rfl
  | cons name rest ih =>
    rw [makeFrom, onWay]
    cases here : s.entryAt? (next place name) with
    | some e =>
      cases e with
      | directory => exact (ih made s (next place name)).rest
      | file content => exact fun p => Or.inl rfl
    | none =>
      dsimp only
      cases disk.make (next place name) with
      | some e => exact fun p => Or.inl rfl
      | none => exact .of_put here (ih true _ (next place name))

theorem makeFrom_sound_ok_iff {ε : Type} (fault : FileFault → ε) (made : Bool) (s : Store)
    (place names : Path) :
    (makeFrom fault .sound made s place names).2 = .ok () ↔
      ∀ p ∈ onWay place names, ∀ content, s.entryAt? p ≠ some (.file content) := by
  induction names generalizing made s place with
  | nil => simp [makeFrom, onWay]
  | cons name rest ih =>
    rw [makeFrom, onWay, List.forall_mem_cons]
    cases here : s.entryAt? (next place name) with
    | some e =>
      cases e with
      | directory => simpa using ih made s (next place name)
      | file content => simp
    | none =>
      have inside : next place name ≠ [] := ne_nil_of_entryAt? (by rw [here]; nofun)
      have files (p : Path) (content : Content) :
          (s.put (next place name) .directory).entryAt? p = some (.file content) ↔
            s.entryAt? p = some (.file content) := by
        rw [entryAt?_put _ _ inside]
        by_cases same : p = next place name
        · rw [if_pos same, same, here]
          simp
        · rw [if_neg same]
      simpa [files, Disk.sound] using ih true (s.put (next place name) .directory) (next place name)

theorem makeFrom_directories {ε : Type} {fault : FileFault → ε} {disk : Disk ε} {made : Bool}
    {names : Path} (run : makeFrom fault disk made s place names = (after, .ok ())) :
    ∀ p ∈ onWay place names, after.entryAt? p = some .directory := by
  induction names generalizing made s place with
  | nil => nofun
  | cons name rest ih =>
    have grows := makeFrom_grows fault disk made s place (name :: rest)
    rw [run] at grows
    rw [makeFrom] at run
    rw [onWay, List.forall_mem_cons]
    cases here : s.entryAt? (next place name) with
    | some e =>
      rw [here] at run
      cases e with
      | directory => exact ⟨grows.directory_stays here, ih run⟩
      | file content => cases run
    | none =>
      rw [here] at run
      dsimp only at run
      cases refused : disk.make (next place name) with
      | some e =>
        rw [refused] at run
        cases run
      | none =>
        rw [refused] at run
        have inside : next place name ≠ [] := ne_nil_of_entryAt? (by rw [here]; nofun)
        have later := makeFrom_grows fault disk true (s.put (next place name) .directory)
          (next place name) rest
        dsimp only at run
        rw [run] at later
        exact ⟨later.directory_stays (by rw [entryAt?_put _ _ inside, if_pos rfl]), ih run⟩

theorem makeFrom_directory_iff {ε : Type} {fault : FileFault → ε} {disk : Disk ε} {made : Bool}
    {names : Path} (run : makeFrom fault disk made s place names = (after, .ok ())) (p : Path) :
    after.entryAt? p = some .directory ↔
      s.entryAt? p = some .directory ∨ p ∈ onWay place names := by
  have grows := makeFrom_grows fault disk made s place names
  rw [run] at grows
  constructor
  · intro there
    exact (grows.directory_listed there).imp id And.right
  · rintro (old | listed)
    · exact grows.directory_stays old
    · exact makeFrom_directories run p listed

theorem walk_onWay {names : Path} (there : s.entryAt? place = some .directory)
    (all : ∀ p ∈ onWay place names, s.entryAt? p = some .directory) :
    ∃ q, s.walk place names = .ok q ∧ s.entryAt? q = some .directory := by
  induction names generalizing place with
  | nil => exact ⟨place, rfl, there⟩
  | cons name rest ih =>
    rw [onWay, List.forall_mem_cons] at all
    obtain ⟨q, walked, ended⟩ := ih all.1 all.2
    exact ⟨q, walk_cons_eq_ok.mpr ⟨there, walked⟩, ended⟩

end SoundLaw.Store
