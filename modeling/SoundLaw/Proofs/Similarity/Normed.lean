import SoundLaw.Similarity.Schema
import SoundLaw.Proofs.Phonology.Token
import SoundLaw.Proofs.Text.Pieces
import SoundLaw.Proofs.Similarity.Guarded

/-!
The laws of the distances of rows of tokens: the order of the two rows does not matter, to the last
digit, rows that are alike have distance zero, and the normalized distance goes up to one, where it
is when one row is empty. So all hits of a search pass the bounds that are set on their distance.
-/
namespace SoundLaw
open Scale

section
variable {α : Type} [Scale α]

def PositiveUnless (p : Prop) (x : α) : Prop := p ∧ x = 0.0 ∨ ¬p ∧ less 0.0 x = true

theorem PositiveUnless.amount {p : Prop} {x : α} (positive : PositiveUnless p x) : Amount x :=
  positive.imp And.right And.right

theorem lesser_positive {x y : α} (first : less 0.0 x = true) (second : less 0.0 y = true) :
    less 0.0 (lesser x y) = true := by
  rcases lesser_cases x y with same | same
  · rwa [same]
  · rwa [same]

theorem cell_nil (distance : Text → Text → α) (as : List Text) :
    cell distance as [] = count as.length * Weight.gap := by
  cases as <;> rw [cell]

theorem editDistance_nil (m : Model) (bs : List Text) :
    (editDistance m [] bs : α) = count bs.length * Weight.gap := by
  rw [editDistance_eq_cell, List.reverse_nil, cell, List.length_reverse]

end

/-- The laws of the distance of two rows of tokens, measured in some scale. -/
structure Normed (α : Type) [Scale α] (m : Model) (as bs : List Text) : Prop where
  edit_comm : (editDistance m as bs : α) = editDistance m bs as
  comm : (normalizedDistance m as bs : α) = normalizedDistance m bs as
  nonneg : atMost 0.0 (normalizedDistance m as bs : α) = true
  atMost_one : atMost (normalizedDistance m as bs : α) 1.0 = true
  zero_of_eq : as = bs → (normalizedDistance m as bs : α) = 0.0
  one_of_empty : (as = [] ↔ bs ≠ []) → (normalizedDistance m as bs : α) = 1.0
  edit_divides : (editDistance m as bs : Guarded α) = .of (editDistance m as bs)
  divides : (normalizedDistance m as bs : Guarded α) = .of (normalizedDistance m as bs)

theorem alike_self (m : Model) (as : List Text) : List.Forall₂ (Alike m) as as :=
  List.forall₂_same.mpr fun _ _ => Or.inl rfl

section
variable {α : Type} [Scale α] [Measuring α] {distance : Text → Text → α} {P : Text → Text → Prop}
  {m : Model} {as bs : List Text}

theorem gaps_graded {k : Nat} (holds : Measuring.Holds α k) :
    Graded (k = 0) (count k * Weight.gap : α) := by
  rcases Nat.eq_zero_or_pos k with rfl | pos
  · rw [Measuring.no_gaps]
    exact graded_zero rfl
  · exact graded_clear pos.ne' (Measuring.gaps holds pos)

theorem Graded.gap {p : Prop} {x : α} (graded : Graded p x) : Graded False (x + Weight.gap) :=
  (graded.add (graded_clear not_false Measuring.gap)).congr (by rw [and_false])

theorem Graded.positive {x : α} (graded : Graded False x) : less 0.0 x = true := by
  rcases graded with ⟨impossible, _⟩ | ⟨_, clear⟩
  · exact impossible.elim
  · exact Measuring.clear_positive clear

theorem cell_graded (graded : ∀ a b, Graded (P a b) (distance a b)) (as bs : List Text)
    (holds : Measuring.Holds α as.length) (holds' : Measuring.Holds α bs.length) :
    Graded (List.Forall₂ P as bs) (cell distance as bs) := by
  induction as, bs using cell.induct with
  | case1 bs =>
    rw [cell]
    exact (gaps_graded holds').congr (by simp)
  | case2 a as =>
    rw [cell]
    exact (gaps_graded holds).congr (by simp)
  | case3 a as b bs diagonal above left =>
    have fewer := Measuring.holds_of_le (Nat.le_succ as.length) holds
    have fewer' := Measuring.holds_of_le (Nat.le_succ bs.length) holds'
    have substituted := (diagonal fewer fewer').add (graded a b)
    have deleted := (above fewer holds').gap
    have inserted := (left holds fewer').gap
    rw [cell]
    refine ((substituted.lesser deleted).lesser inserted).congr ?_
    rw [or_false, or_false, List.forall₂_cons, and_comm]

theorem cell_comm (graded : ∀ a b, Graded (P a b) (distance a b))
    (comm : ∀ a b, distance a b = distance b a) (as bs : List Text)
    (holds : Measuring.Holds α as.length) (holds' : Measuring.Holds α bs.length) :
    cell distance as bs = cell distance bs as := by
  induction as, bs using cell.induct with
  | case1 bs => rw [cell_nil, cell]
  | case2 a as => rw [cell_nil, cell]
  | case3 a as b bs diagonal above left =>
    have fewer := Measuring.holds_of_le (Nat.le_succ as.length) holds
    have fewer' := Measuring.holds_of_le (Nat.le_succ bs.length) holds'
    have substituted := (cell_graded graded as bs fewer fewer').add (graded a b)
    have deleted := (cell_graded graded as (b :: bs) fewer holds').gap
    have inserted := (cell_graded graded (a :: as) bs holds fewer').gap
    -- Deletions and insertions change places, in the minimum of three as well.
    rw [cell, cell, ← diagonal fewer fewer', ← above fewer holds', ← left holds fewer', comm b a]
    exact lesser_right_comm substituted.amount.number deleted.positive inserted.positive

theorem holds_max (holds : Measuring.Holds α as.length) (holds' : Measuring.Holds α bs.length) :
    Measuring.Holds α (max as.length bs.length) := by
  rcases max_choice as.length bs.length with same | same
  · rwa [same]
  · rwa [same]

theorem one_positive : less (0.0 : α) 1.0 = true := Measuring.clear_positive Measuring.one

theorem Graded.div_gaps {p : Prop} {x : α} {k : Nat} (graded : Graded p x)
    (holds : Measuring.Holds α k) (pos : 0 < k) :
    PositiveUnless p (x / (count k * Weight.gap)) := by
  rcases graded with ⟨yes, zero⟩ | ⟨no, clear⟩
  · rw [zero]
    exact Or.inl ⟨yes, Measuring.zero_div_gaps holds pos⟩
  · exact Or.inr ⟨no, Measuring.clear_div_gaps clear holds pos⟩

theorem PositiveUnless.capped {p : Prop} {x : α} (positive : PositiveUnless p x) :
    PositiveUnless p (lesser x 1.0) := by
  rcases positive with ⟨yes, zero⟩ | ⟨no, above⟩
  · rw [zero]
    exact Or.inl ⟨yes, lesser_zero (Or.inr one_positive)⟩
  · exact Or.inr ⟨no, lesser_positive above one_positive⟩

theorem normalizedDistance_nil (m : Model) {bs : List Text} (some : bs ≠ [])
    (holds : Measuring.Holds α bs.length) : (normalizedDistance m [] bs : α) = 1.0 := by
  have pos : 0 < bs.length := List.length_pos_iff.mpr some
  have longest : max ([] : List Text).length bs.length = bs.length := max_eq_right (Nat.zero_le _)
  unfold normalizedDistance
  dsimp only
  rw [longest, if_neg pos.ne', editDistance_nil, Measuring.gaps_div_gaps holds pos]
  exact (lesser_cases _ _).elim id id

/-! ### Distances on a scale that counts the features and both rows -/

variable (counts : Counts α m) (holds : Measuring.Holds α as.length)
  (holds' : Measuring.Holds α bs.length)
include counts holds holds'

theorem editDistance_graded :
    Graded (List.Forall₂ (Alike m) as bs) (editDistance m as bs : α) := by
  rw [editDistance_eq_cell]
  rw [← List.length_reverse] at holds holds'
  exact (cell_graded (phonemeDistance_graded counts) _ _ holds holds').congr
    List.forall₂_reverse_iff

theorem editDistance_comm :
    (editDistance m as bs : α) = editDistance m bs as := by
  rw [editDistance_eq_cell, editDistance_eq_cell]
  rw [← List.length_reverse] at holds holds'
  exact cell_comm (phonemeDistance_graded counts) (phonemeDistance_comm m) _ _ holds holds'

theorem normalizedDistance_positive_unless :
    PositiveUnless (List.Forall₂ (Alike m) as bs) (normalizedDistance m as bs : α) := by
  have longest := holds_max holds holds'
  unfold normalizedDistance
  dsimp only
  split
  · rename_i none
    have empty : as = [] ∧ bs = [] := by simpa using none
    obtain ⟨rfl, rfl⟩ := empty
    exact Or.inl ⟨List.Forall₂.nil, rfl⟩
  · rename_i some
    have edits := editDistance_graded counts holds holds'
    exact (edits.div_gaps longest (Nat.pos_of_ne_zero some)).capped

theorem normalizedDistance_comm :
    (normalizedDistance m as bs : α) = normalizedDistance m bs as := by
  unfold normalizedDistance
  rw [max_comm, editDistance_comm counts holds holds']

theorem normalizedDistance_atMost_one :
    atMost (normalizedDistance m as bs : α) 1.0 = true := by
  have number : atMost (1.0 : α) 1.0 = true := Amount.number (Or.inr one_positive)
  have longest := holds_max holds holds'
  have edits := editDistance_graded counts holds holds'
  unfold normalizedDistance
  dsimp only
  split
  · exact ((Ordered.less_iff _ _).mp one_positive).1
  · rename_i some
    have divided := edits.div_gaps longest (Nat.pos_of_ne_zero some)
    exact (lesser_atMost divided.amount.number number).2

theorem normed : Normed α m as bs where
  edit_comm := editDistance_comm counts holds holds'
  comm := normalizedDistance_comm counts holds holds'
  nonneg := (normalizedDistance_positive_unless counts holds holds').amount.nonneg
  atMost_one := normalizedDistance_atMost_one counts holds holds'
  zero_of_eq := by
    rintro rfl
    rcases normalizedDistance_positive_unless counts holds holds with ⟨_, zero⟩ | ⟨no, _⟩
    · exact zero
    · exact absurd (alike_self m as) no
  one_of_empty := by
    intro one
    by_cases empty : as = []
    · rw [empty, normalizedDistance_nil m (one.mp empty) holds']
    · obtain rfl : bs = [] := Decidable.not_not.mp (mt one.mpr empty)
      rw [normalizedDistance_comm counts holds holds', normalizedDistance_nil m empty holds]
  edit_divides := editDistance_guarded counts as bs
  divides := normalizedDistance_guarded counts (holds_max holds holds')

end

/-! ### The laws in exact and in floating-point numbers -/

/-- No two phonemes have more features than floating-point numbers count one by one. No memory holds
so many. -/
def Model.Sized (m : Model) : Prop := ∀ entry ∈ m.entries, entry.2.length < 2 ^ 52

theorem Model.Sized.counts {m : Model} (sized : m.Sized) : Counts Float m := by
  intro x inside y inside'
  have first := sized x inside
  have second := sized y inside'
  exact (Nat.add_lt_add first second).trans_eq (by norm_num)

theorem hit_measured {α : Type} [Scale α] [Ordered α] {m : Model} {inventory : List Text}
    {query : Text} {entries : List LexiconEntry} {threshold : α} {h : Hit α}
    (member : h ∈ search m inventory query entries threshold) :
    h.entry ∈ entries ∧ h.distance = wordDistance m inventory query.strip h.entry.phonetic := by
  by_cases blank : query.strip = []
  · rw [search, if_pos (List.isEmpty_iff.mpr blank)] at member
    cases member
  · rw [search_eq entries threshold blank, mem_sortBy] at member
    obtain ⟨e, inside, found⟩ := List.mem_filterMap.mp member
    rw [hit?_eq] at found
    split at found
    · cases found
      exact ⟨inside, rfl⟩
    · cases found

theorem length_tokenize_strip_le (inventory : List Text) (query : Text) :
    (tokenize inventory query.strip).length ≤ query.length :=
  (length_tokenize_le inventory query.strip).trans (Text.length_strip_le query)

theorem checkUnitReal_float {x : Float} (nonneg : atMost 0.0 x = true)
    (atMost_one : atMost x 1.0 = true) : Json.checkUnitReal (.float x) = pure x := by
  have above : (x ≥ 0.0) := of_decide_eq_true nonneg
  have below : (x ≤ 1.0) := of_decide_eq_true atMost_one
  simp [Json.checkUnitReal, Json.checkShare, above, below]

/-- Distances do not depend on the order of the two rows, never divide by zero, and lie between zero,
where rows are one, and one, where one row is empty: in floating-point numbers as long as these count
features and tokens one by one. So the distances of a search pass their bounds. -/
theorem distances_normed (m : Model) :
    (∀ as bs, Normed Rat m as bs) ∧
    (m.Sized → ∀ as bs : List Text, as.length < 2 ^ 53 → bs.length < 2 ^ 53 →
      Normed Float m as bs) ∧
    (m.Sized → ∀ (inventory : List Text) (query : Text) (entries : List LexiconEntry)
      (threshold : Float), query.length < 2 ^ 53 →
        (∀ e ∈ entries, e.phonetic.length < 2 ^ 53) →
          ∀ h ∈ search m inventory query entries threshold,
            Json.checkUnitReal (.float h.distance) = pure h.distance) := by
  have rows (sized : m.Sized) (as bs : List Text) (short : as.length < 2 ^ 53)
      (short' : bs.length < 2 ^ 53) : Normed Float m as bs :=
    normed sized.counts short short'
  refine ⟨fun as bs => normed (fun _ _ _ _ => trivial) trivial trivial, rows, ?_⟩
  intro sized inventory query entries threshold short shorts h member
  obtain ⟨inside, measured⟩ := hit_measured member
  have first := length_tokenize_strip_le inventory query
  have second := length_tokenize_le inventory h.entry.phonetic
  have laws := rows sized _ _ (first.trans_lt short) (second.trans_lt (shorts _ inside))
  rw [measured]
  exact checkUnitReal_float laws.nonneg laws.atMost_one

theorem distances_normed_syllables :
    syllables.Sized ∧ (∀ e ∈ lexicon, e.phonetic.length < 2 ^ 53) ∧
      Normed Float syllables ["p", "a"] ["b"] ∧
      (normalizedDistance syllables ["p", "a"] ["b"] : Float) =
        normalizedDistance syllables ["b"] ["p", "a"] ∧
      (search syllables [] " pa" lexicon (1.0 : Float)).length = 3 ∧
      ∀ h ∈ search syllables [] " pa" lexicon (1.0 : Float),
        Json.checkUnitReal (.float h.distance) = pure h.distance := by
  have sized : syllables.Sized := by unfold Model.Sized; decide
  have shorts : ∀ e ∈ lexicon, e.phonetic.length < 2 ^ 53 := by decide
  obtain ⟨_, rows, hits⟩ := distances_normed syllables
  have laws := rows sized ["p", "a"] ["b"] (by decide) (by decide)
  exact ⟨sized, shorts, laws, laws.comm, by decide +kernel,
    hits sized [] " pa" lexicon 1.0 (by decide) shorts⟩

end SoundLaw
