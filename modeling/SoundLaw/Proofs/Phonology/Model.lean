import SoundLaw.Phonology.Model
import Mathlib.Data.List.Basic

/-!
What a model says of a phoneme: looking a phoneme up finds its entry, an expression describes it
by the features of that entry, and a replacement leads to a phoneme of the model or nowhere.
-/
namespace SoundLaw.Model

/-! ### Looking up -/

theorem findEntry_eq_some_iff {phoneme : Text} {features : List Text}
    {l : List (Text × List Text)} (nodup : (l.map Prod.fst).Nodup) :
    findEntry phoneme l = some features ↔ (phoneme, features) ∈ l := by
  induction l with
  | nil => simp [findEntry]
  | cons entry rest ih =>
    obtain ⟨p, own⟩ := entry
    rw [List.map_cons, List.nodup_cons] at nodup
    by_cases same : p = phoneme
    · subst same
      have once : (p, features) ∉ rest := fun member =>
        nodup.1 (List.mem_map.mpr ⟨(p, features), member, rfl⟩)
      simp [findEntry, once, eq_comm]
    · simp [findEntry, same, ih nodup.2, Ne.symm same]

theorem findEntry_eq_none_iff {phoneme : Text} {l : List (Text × List Text)} :
    findEntry phoneme l = none ↔ phoneme ∉ l.map Prod.fst := by
  induction l with
  | nil => simp [findEntry]
  | cons entry rest ih =>
    obtain ⟨p, own⟩ := entry
    by_cases same : p = phoneme
    · simp [findEntry, same]
    · simp [findEntry, same, ih, Ne.symm same]

variable {m : Model} {phoneme : Text} {features : List Text}

theorem features?_eq_some_iff : m.features? phoneme = some features ↔
    (phoneme, features) ∈ m.entries :=
  findEntry_eq_some_iff m.nodup

theorem features?_eq_none_iff : m.features? phoneme = none ↔ phoneme ∉ m.phonemes :=
  findEntry_eq_none_iff

/-! ### Descriptions -/

/-- A phoneme of the model with all required features and none of the excluded ones. -/
def Answers (m : Model) (e : Expression) (phoneme : Text) : Prop :=
  ∃ features, (phoneme, features) ∈ m.entries ∧
    (∀ f ∈ e.positive, f ∈ features) ∧ ∀ f ∈ e.negative, f ∉ features

theorem fits_iff (e : Expression) (features : List Text) :
    fits e features = true ↔
      (∀ f ∈ e.positive, f ∈ features) ∧ ∀ f ∈ e.negative, f ∉ features := by
  simp [fits]

theorem describes_iff (e : Expression) :
    m.describes e phoneme = true ↔ m.Answers e phoneme := by
  unfold describes Answers
  cases found : m.features? phoneme with
  | none =>
    have unknown := features?_eq_none_iff.mp found
    constructor
    · intro h
      cases h
    · rintro ⟨features, member, _⟩
      exact absurd (List.mem_map.mpr ⟨(phoneme, features), member, rfl⟩) unknown
  | some features =>
    simp only [fits_iff, ← features?_eq_some_iff, found, Option.some.injEq]
    constructor
    · intro h
      exact ⟨features, rfl, h⟩
    · rintro ⟨_, rfl, h⟩
      exact h

/-! ### Replacements -/

theorem nearestFrom_mem {target : List Text} {best : Option (Text × Score)}
    {l : List (Text × List Text)} {found : Text}
    (nearest : nearestFrom target best l = some found) :
    best.map Prod.fst = some found ∨ found ∈ l.map Prod.fst := by
  induction l generalizing best with
  | nil => exact Or.inl (by simpa [nearestFrom] using nearest)
  | cons entry rest ih =>
    obtain ⟨p, own⟩ := entry
    rw [List.map_cons, List.mem_cons]
    cases best with
    | none =>
      rcases ih nearest with here | later
      · exact Or.inr (Or.inl (by simpa [eq_comm] using here))
      · exact Or.inr (Or.inr later)
    | some old =>
      obtain ⟨q, score⟩ := old
      rcases ih nearest with here | later
      · split at here
        · exact Or.inr (Or.inl (by simpa [eq_comm] using here))
        · exact Or.inl (by simpa using here)
      · exact Or.inr (Or.inr later)

theorem nearest_mem {target : List Text} (nearest : m.nearest target = some phoneme) :
    phoneme ∈ m.phonemes :=
  (nearestFrom_mem nearest).resolve_left (by simp)

theorem replace_mem (r : Replacement) :
    m.replace r phoneme = phoneme ∨ m.replace r phoneme ∈ m.phonemes := by
  unfold replace
  split
  · exact Or.inl rfl
  · split
    · rename_i nearest
      exact Or.inr (nearest_mem nearest)
    · exact Or.inl rfl

end SoundLaw.Model
