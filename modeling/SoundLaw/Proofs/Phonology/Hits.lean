import SoundLaw.Proofs.Phonology.Nearest

/-!
Exact hits of a replacement. Where some phoneme has just the features that a replacement asks for,
the first such phoneme shares all features with the target and all phonemes before it share less,
so the scan ends there. Only two targets miss their hit: one without any feature, with which no
phoneme shares anything, so the first phoneme of the model is taken, and one whose hit is the empty
text, which counts as none.
-/
namespace SoundLaw

/-- The features that a replacement makes of others: those that it leaves and those that it sets. -/
def Replacement.Asks (r : Replacement) (features : List Text) (f : Text) : Prop :=
  f ∈ features ∧ f ∉ r.remove ∨ f ∈ r.set

def Replacement.Makes (r : Replacement) (old new : List Text) : Prop :=
  ∀ f, f ∈ new ↔ r.Asks old f

theorem Replacement.mem_apply {r : Replacement} {features : List Text} {f : Text} :
    f ∈ r.apply features ↔ r.Asks features f := by
  simp [apply, Asks]

namespace Model

/-- The first phoneme of the model with just the features that a replacement makes of others. -/
def FirstHit (m : Model) (r : Replacement) (features : List Text) (phoneme : Text) : Prop :=
  ∃ before own after, m.entries = before ++ (phoneme, own) :: after ∧ r.Makes features own ∧
    ∀ other ∈ before, ¬ r.Makes features other.2

def First (m : Model) (phoneme : Text) (own : List Text) : Prop :=
  ∃ rest, m.entries = (phoneme, own) :: rest

variable {m : Model} {r : Replacement} {target features own : List Text} {p q first : Text}

/-! ### Full shares -/

theorem share_le_one (target features : List Text) : share target features ≤ 1 := by
  rw [share, ← commonCount_eq_card, ← unionCount_eq_card]
  exact div_le_one_of_le₀ (Nat.cast_le.mpr (commonCount_le_unionCount target features))
    (Nat.cast_nonneg _)

theorem share_nil (features : List Text) : share [] features = 0 := by
  simp [share]

theorem share_eq_one_iff (filled : target ≠ []) :
    share target features = 1 ↔ ∀ f, f ∈ features ↔ f ∈ target := by
  have some : unionCount target features ≠ 0 := by
    rw [unionCount_eq_card]
    simp [filled]
  rw [share, ← commonCount_eq_card, ← unionCount_eq_card,
    div_eq_one_iff_eq (Nat.cast_ne_zero.mpr some), Nat.cast_inj, commonCount_eq_unionCount_iff]
  exact forall_congr' fun f => iff_comm

/-! ### The nearest phoneme and the first hit -/

theorem makes_iff (r : Replacement) (features own : List Text) :
    r.Makes features own ↔ ∀ f, f ∈ own ↔ f ∈ r.apply features :=
  forall_congr' fun _ => by rw [Replacement.mem_apply]

theorem nearest_hit (filled : r.apply features ≠ []) (hit : m.FirstHit r features q) :
    m.nearest (r.apply features) = some q := by
  obtain ⟨before, own, after, split, exact, earlier⟩ := hit
  refine (nearest_eq_some_iff m _ q).mpr ⟨own, before, after, split, ?_, ?_⟩
  · intro other member
    have full := (share_eq_one_iff filled).mpr ((makes_iff r features own).mp exact)
    have less := fun full' => earlier other member
      ((makes_iff r features other.2).mpr ((share_eq_one_iff filled).mp full'))
    rw [full]
    exact lt_of_le_of_ne (share_le_one _ _) less
  · intro other _
    rw [(share_eq_one_iff filled).mpr ((makes_iff r features own).mp exact)]
    exact share_le_one _ _

theorem nearest_nothing (start : m.First first own) : m.nearest [] = some first := by
  obtain ⟨rest, entries⟩ := start
  refine (nearest_eq_some_iff m [] first).mpr ⟨own, [], rest, entries, by simp, ?_⟩
  intro other _
  rw [share_nil, share_nil]

theorem replace_nearest (known : (p, features) ∈ m.entries)
    (nearest : m.nearest (r.apply features) = some q) :
    m.replace r p = if q = [] then p else q := by
  rw [replace, features?_eq_some_iff.mpr known]
  dsimp only
  rw [nearest]
  cases q <;> rfl

theorem exists_first (known : (p, features) ∈ m.entries) : ∃ first own, m.First first own := by
  obtain ⟨entry, rest, entries⟩ := List.exists_cons_of_ne_nil (List.ne_nil_of_mem known)
  exact ⟨entry.1, entry.2, rest, entries⟩

theorem exists_hit (known : (p, features) ∈ m.entries) (satisfied : r.Makes features features) :
    ∃ q, m.FirstHit r features q := by
  have here : sameSet features (r.apply features) = true :=
    sameSet_iff.mpr ((makes_iff r features features).mp satisfied)
  have some : (m.entries.find? fun entry => sameSet entry.2 (r.apply features)).isSome = true :=
    List.find?_isSome.mpr ⟨_, known, here⟩
  obtain ⟨q, found⟩ := Option.isSome_iff_exists.mp some
  obtain ⟨exact, before, after, split, earlier⟩ := List.find?_eq_some_iff_append.mp found
  refine ⟨q.1, before, q.2, after, split, ?_, ?_⟩
  · exact (makes_iff r features q.2).mpr (sameSet_iff.mp exact)
  · intro other member made
    have passed := earlier other member
    rw [sameSet_iff.mpr ((makes_iff r features other.2).mp made)] at passed
    cases passed

theorem FirstHit.entry (hit : m.FirstHit r features q) :
    ∃ own, (q, own) ∈ m.entries ∧ r.Makes features own := by
  obtain ⟨before, own, after, split, exact, _⟩ := hit
  exact ⟨own, split ▸ List.mem_append_right before List.mem_cons_self, exact⟩

theorem replace_hit (known : (p, features) ∈ m.entries) (asked : ∃ f, r.Asks features f)
    (hit : m.FirstHit r features q) : m.replace r p = if q = [] then p else q := by
  obtain ⟨f, asked⟩ := asked
  have filled : r.apply features ≠ [] := List.ne_nil_of_mem (Replacement.mem_apply.mpr asked)
  exact replace_nearest known (nearest_hit filled hit)

theorem replace_nothing (known : (p, features) ∈ m.entries)
    (nothing : ∀ f, ¬ r.Asks features f) (start : m.First first own) :
    m.replace r p = if first = [] then p else first := by
  have bare : r.apply features = [] :=
    List.eq_nil_iff_forall_not_mem.mpr fun f member => nothing f (Replacement.mem_apply.mp member)
  exact replace_nearest known (bare ▸ nearest_nothing start)

theorem replace_satisfied (known : (p, features) ∈ m.entries)
    (satisfied : r.Makes features features) (filled : features ≠ []) :
    ∃ own, (m.replace r p, own) ∈ m.entries ∧ ∀ f, f ∈ own ↔ f ∈ features := by
  obtain ⟨q, hit⟩ := exists_hit known satisfied
  obtain ⟨f, member⟩ := List.exists_mem_of_ne_nil features filled
  obtain ⟨own, entry, exact⟩ := hit.entry
  rw [replace_hit known ⟨f, (satisfied f).mp member⟩ hit]
  split
  · exact ⟨features, known, fun _ => Iff.rfl⟩
  · exact ⟨own, entry, fun f => (exact f).trans (satisfied f).symm⟩

theorem replace_satisfied_bare (known : (p, []) ∈ m.entries) (satisfied : r.Makes [] [])
    (start : m.First first own) :
    (m.replace r p, []) ∈ m.entries ↔ first = [] ∨ own = [] := by
  have nothing : ∀ f, ¬ r.Asks [] f := fun f asked => List.not_mem_nil ((satisfied f).mpr asked)
  rw [replace_nothing known nothing start]
  obtain ⟨rest, entries⟩ := start
  have foremost : (first, own) ∈ m.entries := entries ▸ List.mem_cons_self
  split
  · rename_i nameless
    simp [nameless, known]
  · rename_i named
    rw [← features?_eq_some_iff, features?_eq_some_iff.mpr foremost]
    simp [named]

/-- A replacement finds its first exact hit unless the hit is the empty text. Where it asks for no
feature it takes the first phoneme of the model in place of the hit, unless that is the empty text.
So a phoneme that a replacement is satisfied with keeps its features if it has any; one without
features keeps having none just where the first phoneme has none or is the empty text. -/
theorem replace_hits_iff (m : Model) (r : Replacement) (p : Text) (features : List Text)
    (known : (p, features) ∈ m.entries) :
    (∀ q, m.FirstHit r features q →
      ((∃ f, r.Asks features f) → (m.replace r p = q ↔ (q = [] → p = []))) ∧
      ((∀ f, ¬ r.Asks features f) → ∃ first own, m.First first own ∧
        (m.replace r p = q ↔ if first = [] then p = q else first = q))) ∧
    (r.Makes features features →
      (features ≠ [] → ∃ own, (m.replace r p, own) ∈ m.entries ∧ ∀ f, f ∈ own ↔ f ∈ features) ∧
      (features = [] → ∃ first own, m.First first own ∧
        ((m.replace r p, []) ∈ m.entries ↔ first = [] ∨ own = []))) := by
  obtain ⟨first, start, begins⟩ := exists_first known
  refine ⟨fun q hit => ⟨fun asked => ?_, fun nothing => ?_⟩, fun satisfied => ⟨?_, ?_⟩⟩
  · rw [replace_hit known asked hit]
    split
    · rename_i nameless
      simp [nameless]
    · rename_i named
      simp [named]
  · refine ⟨first, start, begins, ?_⟩
    rw [replace_nothing known nothing begins]
    split <;> rfl
  · exact replace_satisfied known satisfied
  · rintro rfl
    exact ⟨first, start, begins, replace_satisfied_bare known satisfied begins⟩

def labials : Model :=
  .ofList [("p", ["stop"]), ("b", ["voiced", "stop"]), ("ɓ", ["stop", "voiced"])]

theorem replace_hits_iff_labials :
    ("p".toList, ["stop".toList]) ∈ labials.entries ∧
      labials.FirstHit ⟨["voiced"], []⟩ ["stop"] "b" ∧
      labials.replace ⟨["voiced"], []⟩ "p" = "b" ∧
      ∃ own, (labials.replace ⟨["voiced"], []⟩ "ɓ", own) ∈ labials.entries ∧
        ∀ f, f ∈ own ↔ f ∈ (["stop", "voiced"] : List Text) := by
  have hit : labials.FirstHit ⟨["voiced"], []⟩ ["stop"] "b" := by
    refine ⟨[("p", ["stop"])], ["voiced", "stop"], [("ɓ", ["stop", "voiced"])], by decide, ?_, ?_⟩
    · intro f
      simp [Replacement.Asks, or_comm]
    · intro other member made
      obtain rfl := List.mem_singleton.mp member
      exact absurd ((made "voiced").mpr (Or.inr List.mem_cons_self)) (by decide)
  have hits := (replace_hits_iff labials ⟨["voiced"], []⟩ "p" ["stop"] (by decide)).1 "b" hit
  have satisfied : Replacement.Makes ⟨["voiced"], []⟩ ["stop", "voiced"] ["stop", "voiced"] := by
    intro f
    simp [Replacement.Asks]
  have kept := (replace_hits_iff labials ⟨["voiced"], []⟩ "ɓ" ["stop", "voiced"] (by decide)).2
  refine ⟨by decide, hit, (hits.1 ⟨"voiced", Or.inr List.mem_cons_self⟩).mpr fun unnamed => ?_,
    (kept satisfied).1 (by decide)⟩
  cases unnamed

def bare : Model := .ofList [("a", ["vowel"]), ("b", [])]

def nameless : Model := .ofList [([], ["voiced"]), ("p", ["stop"])]

/-- A hit without features is missed, and so is one that is the empty text. -/
theorem replace_misses :
    (("b".toList, []) ∈ bare.entries ∧ bare.FirstHit ⟨[], []⟩ [] "b" ∧
      bare.replace ⟨[], []⟩ "b" = "a") ∧
    ("p".toList, ["stop".toList]) ∈ nameless.entries ∧
      nameless.FirstHit ⟨["voiced"], ["stop"]⟩ ["stop"] [] ∧
      nameless.replace ⟨["voiced"], ["stop"]⟩ "p" = "p" := by
  refine ⟨⟨by decide, ⟨[("a", ["vowel"])], [], [], by decide, ?_, ?_⟩, by decide⟩, by decide,
    ⟨[], ["voiced"], [("p", ["stop"])], by decide, ?_, by simp⟩, by decide⟩
  · intro f
    simp [Replacement.Asks]
  · intro other member made
    obtain rfl := List.mem_singleton.mp member
    simpa [Replacement.Asks] using (made "vowel").mp List.mem_cons_self
  · intro f
    simp [Replacement.Asks]

end Model
end SoundLaw
