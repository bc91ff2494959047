import SoundLaw.Phonology.Expression

/-!
Feature models: phonemes with their features, in an order that decides between equals. A model
answers which phonemes an expression describes and which phoneme is nearest to given features.
-/
namespace SoundLaw

/-- Phonemes with their features; each phoneme stands once. -/
structure Model where
  entries : List (Text × List Text)
  nodup : (entries.map Prod.fst).Nodup

namespace Model

def putEntry (phoneme : Text) (features : List Text) :
    List (Text × List Text) → List (Text × List Text)
  | [] => [(phoneme, features)]
  | (p, old) :: rest =>
    if p = phoneme then (p, features) :: rest else (p, old) :: putEntry phoneme features rest

theorem mem_keys_putEntry {phoneme p : Text} {features : List Text}
    {l : List (Text × List Text)} (h : p ∈ (putEntry phoneme features l).map Prod.fst) :
    p = phoneme ∨ p ∈ l.map Prod.fst := by
  induction l with
  | nil => simpa [putEntry] using h
  | cons entry rest ih =>
    obtain ⟨q, old⟩ := entry
    by_cases same : q = phoneme
    · simp only [putEntry, same, ↓reduceIte, List.map_cons, List.mem_cons] at h ⊢
      exact Or.inr h
    · simp only [putEntry, same, ↓reduceIte, List.map_cons, List.mem_cons] at h ⊢
      rcases h with h | h
      · exact Or.inr (Or.inl h)
      · rcases ih h with h | h
        · exact Or.inl h
        · exact Or.inr (Or.inr h)

theorem nodup_putEntry (phoneme : Text) (features : List Text) {l : List (Text × List Text)}
    (h : (l.map Prod.fst).Nodup) : ((putEntry phoneme features l).map Prod.fst).Nodup := by
  induction l with
  | nil => simp [putEntry]
  | cons entry rest ih =>
    obtain ⟨q, old⟩ := entry
    simp only [List.map_cons, List.nodup_cons] at h
    by_cases same : q = phoneme
    · simpa only [putEntry, same, ↓reduceIte, List.map_cons, List.nodup_cons] using same ▸ h
    · simp only [putEntry, same, ↓reduceIte, List.map_cons, List.nodup_cons]
      refine ⟨fun member => ?_, ih h.2⟩
      rcases mem_keys_putEntry member with e | e
      · exact same e
      · exact h.1 e

def empty : Model := ⟨[], by simp⟩

def put (m : Model) (phoneme : Text) (features : List Text) : Model :=
  ⟨putEntry phoneme features m.entries, nodup_putEntry phoneme features m.nodup⟩

/-- The model of a list; of a phoneme that stands twice the last features count. -/
def ofList (l : List (Text × List Text)) : Model :=
  l.foldl (fun m entry => m.put entry.1 entry.2) empty

def phonemes (m : Model) : List Text := m.entries.map Prod.fst

def findEntry (phoneme : Text) : List (Text × List Text) → Option (List Text)
  | [] => none
  | (p, features) :: rest => if p = phoneme then some features else findEntry phoneme rest

def features? (m : Model) (phoneme : Text) : Option (List Text) := findEntry phoneme m.entries

def fits (e : Expression) (features : List Text) : Bool :=
  e.positive.all (fun f => decide (f ∈ features)) && !e.negative.any fun f => decide (f ∈ features)

/-- Whether a phoneme answers to an expression; an unknown one never does. -/
def describes (m : Model) (e : Expression) (phoneme : Text) : Bool :=
  match m.features? phoneme with
  | some features => fits e features
  | none => false

structure Score where
  common : Nat
  together : Nat
deriving DecidableEq

/-- Two sets without any feature have nothing in common. -/
def score (target features : List Text) : Score :=
  ⟨commonCount target features, max 1 (unionCount target features)⟩

def Score.less (a b : Score) : Bool := a.common * b.together < b.common * a.together

/-- The best of the phonemes so far and those to come; of equals the earlier one. -/
def nearestFrom (target : List Text) : Option (Text × Score) → List (Text × List Text) → Option Text
  | best, [] => best.map Prod.fst
  | none, (p, features) :: rest => nearestFrom target (some (p, score target features)) rest
  | some (q, best), (p, features) :: rest =>
    let new := score target features
    nearestFrom target (some (if best.less new then (p, new) else (q, best))) rest

/-- The first phoneme whose features are nearest to the target; none only in an empty model. -/
def nearest (m : Model) (target : List Text) : Option Text := nearestFrom target none m.entries

/-- The phoneme that a replacement makes of another. A phoneme unknown to the model stays, and so
does one whose replacement would be the empty text. -/
def replace (m : Model) (r : Replacement) (phoneme : Text) : Text :=
  match m.features? phoneme with
  | none => phoneme
  | some features =>
    match m.nearest (r.apply features) with
    | some (c :: rest) => c :: rest
    | _ => phoneme

end Model
end SoundLaw
