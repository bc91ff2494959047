import SoundLaw.Proofs.Similarity.Measuring
import SoundLaw.Proofs.Similarity.Alignment
import SoundLaw.Proofs.Phonology.Model
import SoundLaw.Proofs.Counting

/-!
When a distance is zero. Phonemes that are alike, being one or agreeing in their features, have
distance zero and all others are clearly apart; so two rows of tokens have edit distance zero exactly
when they are alike token by token. A distance does not depend on the order of its two sides.
-/
namespace SoundLaw
open Scale

/-! ### Numbers that are zero or clear -/

section
variable {α : Type} [Scale α] [Measuring α] {p q : Prop} {x y z : α}

/-- Zero where something holds, and clearly above it otherwise. -/
def Graded (p : Prop) (x : α) : Prop := p ∧ x = 0.0 ∨ ¬p ∧ Measuring.Clear x

theorem Graded.amount (graded : Graded p x) : Amount x := by
  rcases graded with ⟨_, zero⟩ | ⟨_, clear⟩
  · exact Or.inl zero
  · exact Or.inr (Measuring.clear_positive clear)

theorem Graded.congr (graded : Graded p x) (same : p ↔ q) : Graded q x := by
  unfold Graded
  rwa [← same]

theorem graded_zero (holds : p) : Graded p (0.0 : α) := Or.inl ⟨holds, rfl⟩

theorem graded_clear (not : ¬p) (clear : Measuring.Clear x) : Graded p x := Or.inr ⟨not, clear⟩

theorem Scale.Amount.number (amount : Amount x) : atMost x x = true := by
  rcases amount with rfl | positive
  · exact Measuring.zero
  · exact (Ordered.ends ((Ordered.less_iff _ _).mp positive).1).2

theorem Scale.Amount.nonneg (amount : Amount x) : atMost 0.0 x = true := by
  rcases amount with rfl | positive
  · exact Measuring.zero
  · exact ((Ordered.less_iff _ _).mp positive).1

theorem Graded.add (first : Graded p x) (second : Graded q y) : Graded (p ∧ q) (x + y) := by
  obtain ⟨le, le'⟩ := Measuring.atMost_add first.amount second.amount
  rcases first with ⟨holds, rfl⟩ | ⟨not, clear⟩
  · rcases second with ⟨holds', rfl⟩ | ⟨not', clear'⟩
    · exact Or.inl ⟨⟨holds, holds'⟩, Measuring.zero_add_zero⟩
    · exact graded_clear (fun both => not' both.2) (Measuring.clear_of_atMost clear' le')
  · exact graded_clear (fun both => not both.1) (Measuring.clear_of_atMost clear le)

theorem not_less_zero (amount : Amount x) : less x 0.0 = false := by
  refine Bool.eq_false_iff.mpr fun negative => ?_
  obtain ⟨_, notBack⟩ := (Ordered.less_iff _ _).mp negative
  rcases amount with rfl | positive
  · exact notBack Measuring.zero
  · exact notBack ((Ordered.less_iff _ _).mp positive).1

theorem lesser_zero (amount : Amount x) : lesser 0.0 x = 0.0 := by
  rw [lesser, if_neg (by rw [not_less_zero amount]; exact Bool.false_ne_true)]

theorem zero_lesser (amount : Amount x) : lesser x 0.0 = 0.0 := by
  rcases amount with rfl | positive
  · exact lesser_zero (Or.inl rfl)
  · rw [lesser, if_pos positive]

theorem Graded.lesser (first : Graded p x) (second : Graded q y) :
    Graded (p ∨ q) (lesser x y) := by
  rcases first with ⟨holds, rfl⟩ | ⟨not, clear⟩
  · rw [lesser_zero second.amount]
    exact graded_zero (Or.inl holds)
  · rcases second with ⟨holds', rfl⟩ | ⟨not', clear'⟩
    · rw [zero_lesser (Graded.amount (graded_clear not clear))]
      exact graded_zero (Or.inr holds')
    · refine graded_clear (not_or.mpr ⟨not, not'⟩) ?_
      rcases lesser_cases x y with same | same
      · rw [same]; exact clear
      · rw [same]; exact clear'

theorem atMost_or_less (first : atMost x x = true) (second : atMost y y = true) :
    atMost x y = true ∨ less y x = true := by
  by_cases le : atMost x y = true
  · exact Or.inl le
  · have back := (Ordered.total first second).resolve_left le
    exact Or.inr ((Ordered.less_iff y x).mpr ⟨back, le⟩)

theorem lesser_of_atMost (le : atMost x y = true) : lesser x y = x := by
  refine if_neg fun less => ?_
  exact ((Ordered.less_iff y x).mp less).2 le

theorem lesser_comm (first : less 0.0 x = true) (second : less 0.0 y = true) :
    lesser x y = lesser y x := by
  have number := Amount.number (Or.inr first)
  have number' := Amount.number (Or.inr second)
  rcases atMost_or_less number number' with le | above
  · rw [lesser_of_atMost le]
    rcases atMost_or_less number' number with ge | less
    · rw [lesser_of_atMost ge]
      exact Measuring.antisymm first le ge
    · exact (if_pos less).symm
  · rw [lesser_of_atMost ((Ordered.less_iff y x).mp above).1]
    exact if_pos above

theorem lesser_right_comm (first : atMost x x = true) (second : less 0.0 y = true)
    (third : less 0.0 z = true) : lesser (lesser x y) z = lesser (lesser x z) y := by
  have number := Amount.number (Or.inr second)
  have number' := Amount.number (Or.inr third)
  have below {a b : α} (less : less a b = true) : atMost a b = true :=
    ((Ordered.less_iff a b).mp less).1
  have taken {a b : α} (less : less b a = true) : lesser a b = b := if_pos less
  rcases atMost_or_less first number with le | less
  · rcases atMost_or_less first number' with le' | less'
    · rw [lesser_of_atMost le, lesser_of_atMost le', lesser_of_atMost le]
    · rw [lesser_of_atMost le, taken less', lesser_of_atMost (Ordered.trans (below less') le)]
  · rcases atMost_or_less first number' with le' | less'
    · rw [taken less, lesser_of_atMost le', taken less,
        lesser_of_atMost (Ordered.trans (below less) le')]
    · rw [taken less, taken less', lesser_comm second third]

end

/-! ### Phonemes that are alike -/

/-- What two sets of features have to agree in: their types, some manner, some place, their voicing
and all features outside of these dimensions. -/
structure Agree (a b : List Text) : Prop where
  types : ∀ f ∈ Feature.types, f ∈ a ↔ f ∈ b
  manner : ∃ f ∈ Feature.manners, f ∈ a ∧ f ∈ b
  place : ∃ f ∈ Feature.places, f ∈ a ∧ f ∈ b
  voicing : ∀ f ∈ Feature.voicings, f ∈ a ↔ f ∈ b
  rest : ∀ f, f ∉ Feature.classified → (f ∈ a ↔ f ∈ b)

/-- The same token, or two phonemes of the model that agree in their features. -/
def Alike (m : Model) (a b : Text) : Prop :=
  a = b ∨ ∃ p ∈ m.entries, ∃ q ∈ m.entries, p.1 = a ∧ q.1 = b ∧ Agree p.2 q.2

theorem share_iff (dimension a b : List Text) :
    share dimension a b = true ↔ ∃ f ∈ dimension, f ∈ a ∧ f ∈ b := by
  simp only [share, List.any_eq_true, Bool.and_eq_true, decide_eq_true_eq]
  constructor
  · rintro ⟨f, ha, hb, inside⟩
    exact ⟨f, inside, ha, hb⟩
  · rintro ⟨f, inside, ha, hb⟩
    exact ⟨f, ha, hb, inside⟩

theorem within_same_iff (dimension a b : List Text) :
    sameSet (within dimension a) (within dimension b) = true ↔
      ∀ f ∈ dimension, f ∈ a ↔ f ∈ b := by
  simp only [sameSet_iff, within, List.mem_filter, decide_eq_true_eq]
  constructor
  · intro same f inside
    simpa [inside] using same f
  · intro same f
    by_cases inside : f ∈ dimension
    · simp [inside, same f inside]
    · simp [inside]

def unclassified (features : List Text) : List Text :=
  features.filter fun f => f ∉ Feature.classified

theorem unclassified_count (a b : List Text) :
    unionCount (unclassified a) (unclassified b) ≤ a.length + b.length :=
  (unionCount_le _ _).trans
    (Nat.add_le_add (List.length_filter_le _ a) (List.length_filter_le _ b))

theorem unclassified_same_iff {a b : List Text} :
    (∀ f, f ∈ unclassified a ↔ f ∈ unclassified b) ↔
      ∀ f, f ∉ Feature.classified → (f ∈ a ↔ f ∈ b) := by
  simp only [unclassified, List.mem_filter, decide_eq_true_eq]
  refine forall_congr' fun f => ?_
  by_cases outside : f ∈ Feature.classified
  · simp [outside]
  · simp [outside]

def differing {α : Type} [Scale α] (a b : List Text) : α :=
  0.0 + (if share Feature.manners a b then 0.0 else Weight.manner) +
    (if share Feature.places a b then 0.0 else Weight.place) +
    (if sameSet (within Feature.voicings a) (within Feature.voicings b) then 0.0
      else Weight.voicing) +
    (1.0 - otherOverlap a b) * Weight.other

theorem featureDistance_eq {α : Type} [Scale α] (a b : List Text) :
    (featureDistance a b : α) =
      lesser (differing a b /
        (0.0 + Weight.manner + Weight.place + Weight.voicing + Weight.other)) 1.0 := rfl

section
variable {α : Type} [Scale α] [Measuring α] {m : Model} {a b : List Text}

def Counts (α : Type) [Scale α] [Measuring α] (m : Model) : Prop :=
  ∀ x ∈ m.entries, ∀ y ∈ m.entries, Measuring.Holds α (x.2.length + y.2.length)

theorem otherOverlap_graded (holds : Measuring.Holds α (a.length + b.length)) :
    Graded (∀ f, f ∉ Feature.classified → (f ∈ a ↔ f ∈ b))
      ((1.0 - otherOverlap a b) * Weight.other : α) := by
  have counted := Measuring.holds_of_le (unclassified_count a b) holds
  have counts := commonCount_le_unionCount (unclassified a) (unclassified b)
  have overlap : (otherOverlap a b : α) =
      if unionCount (unclassified a) (unclassified b) = 0 then 1.0
      else count (commonCount (unclassified a) (unclassified b)) /
        count (unionCount (unclassified a) (unclassified b)) := rfl
  refine Graded.congr ?_
    (commonCount_eq_unionCount_iff.trans (unclassified_same_iff (a := a) (b := b)))
  rw [overlap]
  split
  · rename_i none
    rw [Measuring.rest_none]
    exact graded_zero (by omega)
  · rename_i some
    rcases counts.lt_or_eq with part | whole
    · exact graded_clear part.ne (Measuring.rest_part counted part)
    · rw [whole, Measuring.rest_whole counted (Nat.pos_of_ne_zero some)]
      exact graded_zero rfl

theorem weight_graded {p : Prop} {test : Bool} {weight : α} (reads : test = true ↔ p)
    (clear : Measuring.Clear weight) : Graded p (if test then 0.0 else weight) := by
  split
  · rename_i holds
    exact graded_zero (reads.mp holds)
  · rename_i not
    exact graded_clear (mt reads.mpr not) clear

theorem differing_graded
    (types : sameSet (within Feature.types a) (within Feature.types b) = true)
    (holds : Measuring.Holds α (a.length + b.length)) :
    Graded (Agree a b) (differing a b : α) := by
  have none : Graded True (0.0 : α) := graded_zero trivial
  have manners := none.add (weight_graded (share_iff Feature.manners a b) Measuring.manner)
  have places := manners.add (weight_graded (share_iff Feature.places a b) Measuring.place)
  have voicings :=
    places.add (weight_graded (within_same_iff Feature.voicings a b) Measuring.voicing)
  refine (voicings.add (otherOverlap_graded holds)).congr ?_
  constructor
  · rintro ⟨⟨⟨⟨-, manner⟩, place⟩, voicing⟩, rest⟩
    exact ⟨(within_same_iff Feature.types a b).mp types, manner, place, voicing, rest⟩
  · rintro ⟨-, manner, place, voicing, rest⟩
    exact ⟨⟨⟨⟨trivial, manner⟩, place⟩, voicing⟩, rest⟩

theorem featureDistance_graded
    (types : sameSet (within Feature.types a) (within Feature.types b) = true)
    (holds : Measuring.Holds α (a.length + b.length)) :
    Graded (Agree a b) (featureDistance a b : α) := by
  have weights := differing_graded types holds
  rw [featureDistance_eq, Measuring.weights_sum, Measuring.div_one weights.amount]
  exact (weights.lesser (graded_clear not_false Measuring.one)).congr (by rw [or_false])

theorem alike_iff {p q : Text} {fp fq : List Text} (different : p ≠ q)
    (first : m.features? p = some fp) (second : m.features? q = some fq) :
    Alike m p q ↔ Agree fp fq := by
  constructor
  · rintro (same | ⟨x, inside, y, inside', rfl, rfl, agree⟩)
    · exact absurd same different
    · obtain rfl : x.2 = fp :=
        Option.some.inj ((Model.features?_eq_some_iff.mpr inside).symm.trans first)
      obtain rfl : y.2 = fq :=
        Option.some.inj ((Model.features?_eq_some_iff.mpr inside').symm.trans second)
      exact agree
  · intro agree
    exact Or.inr ⟨_, Model.features?_eq_some_iff.mp first, _, Model.features?_eq_some_iff.mp second,
      rfl, rfl, agree⟩

theorem phonemeDistance_graded (counts : Counts α m) (p q : Text) :
    Graded (Alike m p q) (phonemeDistance m p q : α) := by
  unfold phonemeDistance
  by_cases same : p = q
  · rw [if_pos same]
    exact graded_zero (Or.inl same)
  · rw [if_neg same]
    split
    · rename_i fp fq first second
      have alike := alike_iff same first second
      split
      · rename_i types
        have counted := counts _ (Model.features?_eq_some_iff.mp first) _
          (Model.features?_eq_some_iff.mp second)
        exact (featureDistance_graded types counted).congr alike.symm
      · rename_i types
        refine graded_clear (fun h => types ?_) Measuring.one
        exact (within_same_iff Feature.types fp fq).mpr (alike.mp h).types
    · rename_i unknown
      refine graded_clear ?_ Measuring.one
      rintro (equal | ⟨x, inside, y, inside', rfl, rfl, _⟩)
      · exact same equal
      · exact unknown x.2 y.2 (Model.features?_eq_some_iff.mpr inside)
          (Model.features?_eq_some_iff.mpr inside')

end

/-! ### The order of the two sides -/

section
variable {α : Type} [Scale α]

theorem share_comm (dimension a b : List Text) : share dimension a b = share dimension b a := by
  rw [Bool.eq_iff_iff, share_iff, share_iff]
  exact exists_congr fun f => and_congr_right fun _ => and_comm

theorem otherOverlap_comm (a b : List Text) : (otherOverlap a b : α) = otherOverlap b a := by
  unfold otherOverlap
  dsimp only
  rw [unionCount_comm, commonCount_comm]

theorem featureDistance_comm (a b : List Text) :
    (featureDistance a b : α) = featureDistance b a := by
  rw [featureDistance_eq, featureDistance_eq, differing, differing, share_comm _ a b,
    share_comm _ a b, sameSet_comm, otherOverlap_comm]

theorem phonemeDistance_comm (m : Model) (p q : Text) :
    (phonemeDistance m p q : α) = phonemeDistance m q p := by
  unfold phonemeDistance
  by_cases same : p = q
  · rw [if_pos same, if_pos same.symm]
  · rw [if_neg same, if_neg (Ne.symm same)]
    cases m.features? p with
    | none => cases m.features? q <;> rfl
    | some fp =>
      cases m.features? q with
      | none => rfl
      | some fq => dsimp only; rw [sameSet_comm, featureDistance_comm]

end
end SoundLaw
