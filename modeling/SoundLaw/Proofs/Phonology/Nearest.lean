import SoundLaw.Proofs.Phonology.Model
import SoundLaw.Proofs.Counting
import SoundLaw.Proofs.Number.Shares
import Mathlib.Algebra.Order.Field.Rat

/-!
The phoneme that is nearest to given features. It has the greatest share of common features in the
model, and all phonemes before it have less; only an empty model has none. Shares that are computed
in floating-point numbers lead to the same phoneme.
-/
namespace SoundLaw.Model

def share (target features : List Text) : ℚ :=
  (target.toFinset ∩ features.toFinset).card / (target.toFinset ∪ features.toFinset).card

/-- An entry that shares more with the target than all before it, and not less than those after. -/
def Foremost (target : List Text) (entry : Text × List Text) (l : List (Text × List Text)) : Prop :=
  ∃ before after, l = before ++ entry :: after ∧
    (∀ other ∈ before, share target other.2 < share target entry.2) ∧
    ∀ other ∈ after, share target other.2 ≤ share target entry.2

variable {target other : List Text} {entry first second : Text × List Text}
  {l seen : List (Text × List Text)}

/-! ### Scores are shares -/

theorem score_together_pos (target features : List Text) : 0 < (score target features).together :=
  Nat.lt_of_lt_of_le Nat.one_pos (le_max_left 1 _)

theorem score_share (target features : List Text) :
    ((score target features).common / (score target features).together : ℚ) =
      share target features := by
  unfold score share
  rw [commonCount_eq_card, unionCount_eq_card]
  rcases Nat.eq_zero_or_pos (target.toFinset ∪ features.toFinset).card with none | some
  · have common : (target.toFinset ∩ features.toFinset).card = 0 :=
      Nat.le_zero.mp (none ▸ Finset.card_le_card inf_le_sup)
    rw [none, common]
    simp
  · rw [max_eq_right (Nat.succ_le_of_lt some)]

theorem score_less_iff (target a b : List Text) :
    (score target a).less (score target b) = true ↔ share target a < share target b := by
  have pos : (0 : ℚ) < (score target a).together := Nat.cast_pos.mpr (score_together_pos target a)
  have pos' : (0 : ℚ) < (score target b).together := Nat.cast_pos.mpr (score_together_pos target b)
  rw [← score_share, ← score_share, div_lt_div_iff₀ pos pos', Score.less, decide_eq_true_iff]
  norm_cast

theorem score_same_set (same : ∀ f, f ∈ other ↔ f ∈ target) (features : List Text) :
    score other features = score target features := by
  have sets : other.toFinset = target.toFinset := List.toFinset.ext_iff.mpr same
  simp only [score, commonCount_eq_card, unionCount_eq_card, sets]

/-! ### The scan over the entries -/

theorem Foremost.snoc (foremost : Foremost target entry seen) (next : Text × List Text) :
    Foremost target
      (if (score target entry.2).less (score target next.2) then next else entry)
      (seen ++ [next]) := by
  obtain ⟨before, after, rfl, less, atMost⟩ := foremost
  split
  · rename_i better
    rw [score_less_iff] at better
    refine ⟨before ++ entry :: after, [], rfl, ?_, by simp⟩
    intro e member
    rcases List.mem_append.mp member with early | late
    · exact (less e early).trans better
    · rcases List.mem_cons.mp late with rfl | later
      · exact better
      · exact (atMost e later).trans_lt better
  · rename_i notBetter
    rw [score_less_iff, not_lt] at notBetter
    refine ⟨before, after ++ [next], by simp, less, ?_⟩
    intro e member
    rcases List.mem_append.mp member with early | late
    · exact atMost e early
    · rw [List.mem_singleton.mp late]
      exact notBetter

/-- Scanning on from the best entry so far ends at the best one of all. -/
theorem nearestFrom_foremost (foremost : Foremost target entry seen) :
    ∃ best, nearestFrom target (some (entry.1, score target entry.2)) l = some best.1 ∧
      Foremost target best (seen ++ l) := by
  induction l generalizing entry seen with
  | nil =>
    rw [List.append_nil]
    exact ⟨entry, rfl, foremost⟩
  | cons next rest ih =>
    obtain ⟨best, found, all⟩ := ih (foremost.snoc next)
    refine ⟨best, ?_, by rwa [List.append_assoc] at all⟩
    rw [← found, nearestFrom]
    split <;> rfl

theorem nearestFrom_congr (same : ∀ features, score other features = score target features)
    (best : Option (Text × Score)) (l : List (Text × List Text)) :
    nearestFrom other best l = nearestFrom target best l := by
  induction l generalizing best with
  | nil => cases best <;> rfl
  | cons next rest ih =>
    cases best with
    | none => rw [nearestFrom, nearestFrom, same, ih]
    | some old => rw [nearestFrom, nearestFrom, same, ih]

theorem Foremost.unique (one : Foremost target first l) (two : Foremost target second l) :
    first = second := by
  obtain ⟨before, after, rfl, less, atMost⟩ := one
  obtain ⟨before', after', split, less', atMost'⟩ := two
  -- Of two different places each has to share more than the other.
  rcases List.append_eq_append_iff.mp split with ⟨between, rfl, rest⟩ | ⟨between, rfl, rest⟩
  · cases between with
    | nil => exact (List.cons.inj rest).1
    | cons e between =>
      obtain ⟨rfl, rfl⟩ := List.cons.inj rest
      have back := less' first (by simp)
      exact absurd back (not_lt.mpr (atMost second (by simp)))
  · cases between with
    | nil => exact (List.cons.inj rest).1.symm
    | cons e between =>
      obtain ⟨rfl, rfl⟩ := List.cons.inj rest
      have back := less second (by simp)
      exact absurd back (not_lt.mpr (atMost' first (by simp)))

theorem nearest_foremost (m : Model) (target : List Text) (nonempty : m.entries ≠ []) :
    ∃ best, m.nearest target = some best.1 ∧ Foremost target best m.entries := by
  obtain ⟨first, rest, entries⟩ := List.exists_cons_of_ne_nil nonempty
  have start : Foremost target first [first] := ⟨[], [], rfl, by simp, by simp⟩
  rw [nearest, entries, nearestFrom]
  exact nearestFrom_foremost start

theorem nearest_eq_none_iff (m : Model) (target : List Text) :
    m.nearest target = none ↔ m.entries = [] := by
  constructor
  · intro none
    by_contra nonempty
    obtain ⟨best, found, _⟩ := nearest_foremost m target nonempty
    exact nomatch none.symm.trans found
  · intro empty
    rw [nearest, empty]
    rfl

theorem nearest_eq_some_iff (m : Model) (target : List Text) (p : Text) :
    m.nearest target = some p ↔ ∃ features, Foremost target (p, features) m.entries := by
  constructor
  · intro found
    have nonempty : m.entries ≠ [] := fun empty => by
      rw [(nearest_eq_none_iff m target).mpr empty] at found
      cases found
    obtain ⟨best, found', foremost⟩ := nearest_foremost m target nonempty
    obtain rfl : best.1 = p := Option.some.inj (found'.symm.trans found)
    exact ⟨best.2, foremost⟩
  · rintro ⟨features, foremost⟩
    have nonempty : m.entries ≠ [] := by
      obtain ⟨before, after, whole, _⟩ := foremost
      simp [whole]
    obtain ⟨best, found, foremost'⟩ := nearest_foremost m target nonempty
    rw [found, foremost'.unique foremost]

/-! ### Computed shares -/

def computedShare (target features : List Text) : Float :=
  if unionCount target features = 0 then 0.0
  else Scale.count (commonCount target features) / Scale.count (unionCount target features)

def scan (target : List Text) : Option Text → Float → List (Text × List Text) → Option Text
  | best, _, [] => best
  | best, top, (p, features) :: rest =>
    let new := computedShare target features
    if Scale.less top new then scan target (some p) new rest else scan target best top rest

/-- So few features that the quotients of their numbers tell all shares apart. -/
def Few (target features : List Text) : Prop := target.length + features.length < 2 ^ 26

variable {features features' : List Text} {best : Text}

theorem Few.together (few : Few target features) : (score target features).together < 2 ^ 26 :=
  max_lt (by norm_num) ((unionCount_le target features).trans_lt few)

theorem score_common_le (target features : List Text) :
    (score target features).common ≤ (score target features).together :=
  (commonCount_le_unionCount target features).trans (le_max_right 1 _)

theorem computedShare_eq (target features : List Text) :
    computedShare target features =
      Scale.count (score target features).common / Scale.count (score target features).together := by
  unfold computedShare score
  split
  · rename_i none
    have common : commonCount target features = 0 :=
      Nat.le_zero.mp (none ▸ commonCount_le_unionCount target features)
    rw [none, common]
    decide
  · rename_i some
    rw [max_eq_right (Nat.one_le_iff_ne_zero.mpr some)]

theorem less_computedShare (few : Few target features) (few' : Few target features') :
    Scale.less (computedShare target features) (computedShare target features') =
      (score target features).less (score target features') := by
  rw [Bool.eq_iff_iff, computedShare_eq, computedShare_eq, Score.less, decide_eq_true_iff]
  exact Floating.less_share_iff (score_together_pos _ _) (score_together_pos _ _)
    (score_common_le _ _) (score_common_le _ _) few.together few'.together

theorem sentinel_less (few : Few target features) :
    Scale.less (-1.0) (computedShare target features) = true := by
  obtain ⟨q, _, share⟩ := Floating.worth_share (score_together_pos target features)
    (few.together.trans (by norm_num)) (score_common_le target features)
  rw [computedShare_eq]
  exact Scale.Ordered.less_of_less (by decide : Scale.less (-1.0 : Float) 0.0 = true)
    ((Floating.worth_zero.atMost_iff share).mpr (Nat.zero_le q))

theorem scan_eq_nearestFrom (few : Few target features) (all : ∀ next ∈ l, Few target next.2) :
    scan target (some best) (computedShare target features) l =
      nearestFrom target (some (best, score target features)) l := by
  induction l generalizing best features with
  | nil => rfl
  | cons next rest ih =>
    obtain ⟨few', later⟩ := List.forall_mem_cons.mp all
    rw [scan, nearestFrom, less_computedShare few few']
    split
    · exact ih few' later
    · exact ih few later

theorem scan_eq_nearest (m : Model) (target : List Text)
    (few : ∀ entry ∈ m.entries, Few target entry.2) :
    scan target none (-1.0) m.entries = m.nearest target := by
  unfold nearest
  cases entries : m.entries with
  | nil => rfl
  | cons first rest =>
    rw [entries] at few
    obtain ⟨few', later⟩ := List.forall_mem_cons.mp few
    rw [scan, nearestFrom, if_pos (sentinel_less few'), scan_eq_nearestFrom few' later]

/-- Only an empty model has no nearest phoneme. Otherwise it is the phoneme that shares more with the
target than all before it and not less than all after it, however the target is listed; and the scan
by computed shares finds it. -/
theorem nearest_is_foremost (m : Model) (target : List Text) :
    (m.nearest target = none ↔ m.entries = []) ∧
    (∀ p, m.nearest target = some p ↔ ∃ features, Foremost target (p, features) m.entries) ∧
    (∀ other, (∀ f, f ∈ other ↔ f ∈ target) → m.nearest other = m.nearest target) ∧
    ((∀ entry ∈ m.entries, Few target entry.2) →
      scan target none (-1.0) m.entries = m.nearest target) := by
  refine ⟨nearest_eq_none_iff m target, nearest_eq_some_iff m target, ?_, scan_eq_nearest m target⟩
  intro other same
  exact nearestFrom_congr (score_same_set same) none m.entries

def vowels : Model :=
  .ofList [("i", ["vowel", "high"]), ("j", ["glide"]), ("ɪ", ["vowel", "high"])]

theorem nearest_is_foremost_vowels :
    vowels.nearest ["high", "vowel"] = some "i" ∧
      (∃ features, Foremost ["high", "vowel"] ("i", features) vowels.entries) ∧
      vowels.nearest ["vowel", "high", "vowel"] = vowels.nearest ["high", "vowel"] ∧
      scan ["high", "vowel"] none (-1.0) vowels.entries = some "i" := by
  have found : vowels.nearest ["high", "vowel"] = some "i" := by decide +kernel
  obtain ⟨_, foremost, listed, scanned⟩ := nearest_is_foremost vowels ["high", "vowel"]
  refine ⟨found, (foremost "i").mp found, listed _ ?_, (scanned ?_).trans found⟩
  · intro f
    simp only [List.mem_cons, List.not_mem_nil]
    tauto
  · unfold Few
    decide

end SoundLaw.Model
