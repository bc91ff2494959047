import SoundLaw.Proofs.Similarity.Table
import SoundLaw.Proofs.Similarity.Adding
import SoundLaw.Proofs.Similarity.Search
import Mathlib.Data.List.Induction
import Mathlib.Data.List.TakeWhile

/-!
Alignments of two rows of tokens, and the least cost among them. The edit distance is the cost of
some alignment, and no alignment costs less, as long as adding a cost keeps the order of numbers.
-/
namespace SoundLaw
open Scale
variable {α : Type} [Scale α]

inductive Edit where
  | substitute (old new : Text)
  | delete (old : Text)
  | insert (new : Text)
deriving DecidableEq

namespace Edit

def old? : Edit → Option Text
  | .substitute a _ | .delete a => some a
  | .insert _ => none

def new? : Edit → Option Text
  | .substitute _ b | .insert b => some b
  | .delete _ => none

def cost (distance : Text → Text → α) : Edit → α
  | .substitute a b => distance a b
  | .delete _ | .insert _ => Weight.gap

end Edit

/-- Edits that take up two rows of tokens in order. -/
structure Aligns (edits : List Edit) (as bs : List Text) : Prop where
  olds : edits.filterMap Edit.old? = as
  news : edits.filterMap Edit.new? = bs

/-- How many deletions, or insertions, an alignment begins with: its part on the border of the
table. -/
def borderRun (edits : List Edit) : Nat :=
  max (edits.takeWhile fun e => e.new?.isNone).length
    (edits.takeWhile fun e => e.old?.isNone).length

/-- The gaps on the border cost a multiple of the gap, to which the other edits are added from the
left. -/
def alignmentCost (distance : Text → Text → α) (edits : List Edit) : α :=
  (edits.drop (borderRun edits)).foldl (fun sum e => sum + e.cost distance)
    (count (borderRun edits) * Weight.gap)

variable {distance : Text → Text → α} {edits : List Edit} {as bs : List Text} {a b c d : Text}

/-! ### Alignments edit by edit, from the last one -/

theorem aligns_nil_iff : Aligns [] as bs ↔ as = [] ∧ bs = [] :=
  ⟨fun h => ⟨h.olds.symm, h.news.symm⟩, fun ⟨olds, news⟩ => ⟨olds.symm, news.symm⟩⟩

theorem aligns_substitute_iff :
    Aligns (edits ++ [.substitute c d]) (a :: as).reverse (b :: bs).reverse ↔
      c = a ∧ d = b ∧ Aligns edits as.reverse bs.reverse := by
  rw [List.reverse_cons, List.reverse_cons]
  constructor
  · rintro ⟨olds, news⟩
    rw [List.filterMap_append] at olds news
    obtain ⟨olds, lastOld⟩ := List.append_inj' olds rfl
    obtain ⟨news, lastNew⟩ := List.append_inj' news rfl
    exact ⟨List.singleton_inj.mp lastOld, List.singleton_inj.mp lastNew, olds, news⟩
  · rintro ⟨rfl, rfl, olds, news⟩
    exact ⟨by rw [List.filterMap_append, olds]; rfl, by rw [List.filterMap_append, news]; rfl⟩

theorem aligns_delete_iff : Aligns (edits ++ [.delete c]) (a :: as).reverse bs ↔
    c = a ∧ Aligns edits as.reverse bs := by
  have news : (edits ++ [Edit.delete c]).filterMap Edit.new? = edits.filterMap Edit.new? := by
    rw [List.filterMap_append]
    exact List.append_nil _
  rw [List.reverse_cons]
  constructor
  · rintro ⟨olds, rfl⟩
    rw [List.filterMap_append] at olds
    obtain ⟨olds, last⟩ := List.append_inj' olds rfl
    exact ⟨List.singleton_inj.mp last, olds, news.symm⟩
  · rintro ⟨rfl, olds, rfl⟩
    exact ⟨by rw [List.filterMap_append, olds]; rfl, news⟩

theorem aligns_insert_iff : Aligns (edits ++ [.insert d]) as (b :: bs).reverse ↔
    d = b ∧ Aligns edits as bs.reverse := by
  have olds : (edits ++ [Edit.insert d]).filterMap Edit.old? = edits.filterMap Edit.old? := by
    rw [List.filterMap_append]
    exact List.append_nil _
  rw [List.reverse_cons]
  constructor
  · rintro ⟨rfl, news⟩
    rw [List.filterMap_append] at news
    obtain ⟨news, last⟩ := List.append_inj' news rfl
    exact ⟨List.singleton_inj.mp last, olds.symm, news⟩
  · rintro ⟨rfl, rfl, news⟩
    exact ⟨olds, by rw [List.filterMap_append, news]; rfl⟩

/-! ### Costs edit by edit -/

theorem takeWhile_snoc {p : Edit → Bool} {e : Edit} (ends : ¬ ∀ x ∈ edits ++ [e], p x = true) :
    (edits ++ [e]).takeWhile p = edits.takeWhile p := by
  induction edits with
  | nil =>
    rw [List.nil_append, List.takeWhile_cons_of_neg (by simpa using ends)]
    rfl
  | cons first rest ih =>
    rw [List.cons_append, List.takeWhile_cons, List.takeWhile_cons]
    split
    · rename_i passes
      rw [ih fun all => ends (List.forall_mem_cons.mpr ⟨passes, all⟩)]
    · rfl

theorem borderRun_le (edits : List Edit) : borderRun edits ≤ edits.length :=
  max_le (List.takeWhile_prefix _).length_le (List.takeWhile_prefix _).length_le

theorem Aligns.all_delete_iff (aligns : Aligns edits as bs) :
    (∀ e ∈ edits, e.new?.isNone = true) ↔ bs = [] := by
  rw [← aligns.news, List.filterMap_eq_nil_iff]
  simp

theorem Aligns.all_insert_iff (aligns : Aligns edits as bs) :
    (∀ e ∈ edits, e.old?.isNone = true) ↔ as = [] := by
  rw [← aligns.olds, List.filterMap_eq_nil_iff]
  simp

theorem Aligns.cost_snoc {e : Edit} (aligns : Aligns (edits ++ [e]) as bs) (olds : as ≠ [])
    (news : bs ≠ []) :
    alignmentCost distance (edits ++ [e]) = alignmentCost distance edits + e.cost distance := by
  have run : borderRun (edits ++ [e]) = borderRun edits := by
    rw [borderRun, takeWhile_snoc (mt aligns.all_delete_iff.mp news),
      takeWhile_snoc (mt aligns.all_insert_iff.mp olds), ← borderRun]
  rw [alignmentCost, run, List.drop_append_of_le_length (borderRun_le edits), List.foldl_append]
  rfl

theorem alignmentCost_border (run : borderRun edits = edits.length) :
    alignmentCost distance edits = count edits.length * Weight.gap := by
  rw [alignmentCost, run, List.drop_length, List.foldl_nil]

theorem Aligns.cost_deletions (aligns : Aligns edits as []) :
    alignmentCost distance edits = count as.length * Weight.gap := by
  have all := aligns.all_delete_iff.mpr rfl
  have run : borderRun edits = edits.length := by
    rw [borderRun, List.takeWhile_eq_self_iff.mpr all]
    exact max_eq_left (List.takeWhile_prefix _).length_le
  have length : as.length = edits.length := by
    rw [← aligns.olds, List.filterMap_length_eq_length]
    intro e member
    cases e with
    | insert b => cases all _ member
    | _ => rfl
  rw [alignmentCost_border run, length]

theorem Aligns.cost_insertions (aligns : Aligns edits [] bs) :
    alignmentCost distance edits = count bs.length * Weight.gap := by
  have all := aligns.all_insert_iff.mpr rfl
  have run : borderRun edits = edits.length := by
    rw [borderRun, List.takeWhile_eq_self_iff.mpr all]
    exact max_eq_right (List.takeWhile_prefix _).length_le
  have length : bs.length = edits.length := by
    rw [← aligns.news, List.filterMap_length_eq_length]
    intro e member
    cases e with
    | delete a => cases all _ member
    | _ => rfl
  rw [alignmentCost_border run, length]

/-! ### Some alignment has the cost of the cell -/

theorem aligns_deletions (as : List Text) : Aligns (as.map Edit.delete) as [] where
  olds := by rw [List.filterMap_map]; exact List.filterMap_some
  news := by simp [Edit.new?]

theorem aligns_insertions (bs : List Text) : Aligns (bs.map Edit.insert) [] bs where
  olds := by simp [Edit.old?]
  news := by rw [List.filterMap_map]; exact List.filterMap_some

theorem lesser_cases (x y : α) : lesser x y = x ∨ lesser x y = y := by
  unfold lesser
  split
  · exact Or.inr rfl
  · exact Or.inl rfl

theorem cell_attained (distance : Text → Text → α) (as bs : List Text) :
    ∃ edits, Aligns edits as.reverse bs.reverse ∧
      alignmentCost distance edits = cell distance as bs := by
  induction as, bs using cell.induct with
  | case1 bs =>
    refine ⟨_, aligns_insertions bs.reverse, ?_⟩
    rw [(aligns_insertions _).cost_insertions, List.length_reverse, cell]
  | case2 a as =>
    refine ⟨_, aligns_deletions (a :: as).reverse, ?_⟩
    rw [(aligns_deletions _).cost_deletions, List.length_reverse, cell]
  | case3 a as b bs diagonal above left =>
    have olds : (a :: as).reverse ≠ [] := by simp
    have news : (b :: bs).reverse ≠ [] := by simp
    -- The least of three is one of them, and each goes on from an alignment of its cell.
    rw [cell]
    rcases lesser_cases (lesser (cell distance as bs + distance a b)
        (cell distance as (b :: bs) + Weight.gap)) (cell distance (a :: as) bs + Weight.gap)
      with first | last
    · rw [first]
      rcases lesser_cases (cell distance as bs + distance a b)
          (cell distance as (b :: bs) + Weight.gap) with substituted | deleted
      · obtain ⟨edits, aligns, cost⟩ := diagonal
        have extended := aligns_substitute_iff.mpr ⟨@rfl _ a, @rfl _ b, aligns⟩
        exact ⟨_, extended, by rw [extended.cost_snoc olds news, cost, substituted]; rfl⟩
      · obtain ⟨edits, aligns, cost⟩ := above
        have extended := aligns_delete_iff.mpr ⟨@rfl _ a, aligns⟩
        exact ⟨_, extended, by rw [extended.cost_snoc olds news, cost, deleted]; rfl⟩
    · obtain ⟨edits, aligns, cost⟩ := left
      have extended := aligns_insert_iff.mpr ⟨@rfl _ b, aligns⟩
      exact ⟨_, extended, by rw [extended.cost_snoc olds news, cost, last]; rfl⟩

/-! ### No alignment costs less -/

theorem lesser_atMost [Ordered α] {x y : α} (first : atMost x x = true)
    (second : atMost y y = true) :
    atMost (lesser x y) x = true ∧ atMost (lesser x y) y = true := by
  unfold lesser
  split
  · rename_i less
    exact ⟨((Ordered.less_iff y x).mp less).1, second⟩
  · rename_i notLess
    refine ⟨first, (Ordered.total first second).elim id fun above => ?_⟩
    by_contra not
    exact notLess ((Ordered.less_iff y x).mpr ⟨above, not⟩)

theorem lesser_number {x y : α} (first : atMost x x = true) (second : atMost y y = true) :
    atMost (lesser x y) (lesser x y) = true := by
  rcases lesser_cases x y with same | same
  · rw [same]; exact first
  · rw [same]; exact second

def SteadyOn (distance : Text → Text → α) (as bs : List Text) : Prop :=
  ∀ a ∈ as, ∀ b ∈ bs, Steady (distance a b)

theorem SteadyOn.head (steady : SteadyOn distance (a :: as) (b :: bs)) : Steady (distance a b) :=
  steady a List.mem_cons_self b List.mem_cons_self

theorem SteadyOn.above (steady : SteadyOn distance (a :: as) bs) : SteadyOn distance as bs :=
  fun x hx => steady x (List.mem_cons_of_mem a hx)

theorem SteadyOn.left (steady : SteadyOn distance as (b :: bs)) : SteadyOn distance as bs :=
  fun x hx y hy => steady x hx y (List.mem_cons_of_mem b hy)

section
variable [Adding α]

theorem cell_number (as bs : List Text) (steady : SteadyOn distance as bs) :
    atMost (cell distance as bs) (cell distance as bs) = true := by
  induction as, bs using cell.induct with
  | case1 bs => rw [cell]; exact Adding.gaps _
  | case2 a as => rw [cell]; exact Adding.gaps _
  | case3 a as b bs diagonal above left =>
    have first := steady.head _ _ (diagonal steady.above.left)
    have second := Adding.gap _ _ (above steady.above)
    have third := Adding.gap _ _ (left steady.left)
    rw [cell]
    exact lesser_number (lesser_number first second) third

theorem cell_atMost (a : Text) (as : List Text) (b : Text) (bs : List Text)
    (steady : SteadyOn distance (a :: as) (b :: bs)) :
    atMost (cell distance (a :: as) (b :: bs)) (cell distance as bs + distance a b) = true ∧
      atMost (cell distance (a :: as) (b :: bs)) (cell distance as (b :: bs) + Weight.gap) =
        true ∧
      atMost (cell distance (a :: as) (b :: bs)) (cell distance (a :: as) bs + Weight.gap) =
        true := by
  have first := steady.head _ _ (cell_number as bs steady.above.left)
  have second := Adding.gap _ _ (cell_number as (b :: bs) steady.above)
  have third := Adding.gap _ _ (cell_number (a :: as) bs steady.left)
  have inner := lesser_atMost first second
  have outer := lesser_atMost (lesser_number first second) third
  rw [cell]
  exact ⟨Ordered.trans outer.1 inner.1, Ordered.trans outer.1 inner.2, outer.2⟩

theorem cell_least (aligns : Aligns edits as.reverse bs.reverse)
    (steady : SteadyOn distance as bs) :
    atMost (cell distance as bs) (alignmentCost distance edits) = true := by
  induction edits using List.reverseRecOn generalizing as bs with
  | nil =>
    obtain ⟨olds, news⟩ := aligns_nil_iff.mp aligns
    rw [List.reverse_eq_nil_iff] at olds news
    subst olds news
    rw [cell]
    exact Adding.gaps 0
  | append_singleton edits e ih =>
    cases as with
    | nil =>
      rw [aligns.cost_insertions, List.length_reverse, cell]
      exact Adding.gaps _
    | cons a as =>
      cases bs with
      | nil =>
        rw [aligns.cost_deletions, List.length_reverse, cell]
        exact Adding.gaps _
      | cons b bs =>
        obtain ⟨diagonal, above, left⟩ := cell_atMost a as b bs steady
        rw [aligns.cost_snoc (by simp) (by simp)]
        cases e with
        | substitute c d =>
          obtain ⟨rfl, rfl, shorter⟩ := aligns_substitute_iff.mp aligns
          exact Ordered.trans diagonal (steady.head _ _ (ih shorter steady.above.left))
        | delete c =>
          obtain ⟨rfl, shorter⟩ := aligns_delete_iff.mp aligns
          exact Ordered.trans above (Adding.gap _ _ (ih shorter steady.above))
        | insert d =>
          obtain ⟨rfl, shorter⟩ := aligns_insert_iff.mp aligns
          exact Ordered.trans left (Adding.gap _ _ (ih shorter steady.left))

/-- The edit distance is the least cost of an alignment, as long as adding one of the distances
keeps the order of numbers. -/
theorem editDistance_least (m : Model) (as bs : List Text)
    (steady : ∀ a ∈ as, ∀ b ∈ bs, Steady (phonemeDistance m a b : α)) :
    (∃ edits, Aligns edits as bs ∧
        alignmentCost (phonemeDistance m) edits = (editDistance m as bs : α)) ∧
      ∀ edits, Aligns edits as bs →
        atMost (editDistance m as bs : α) (alignmentCost (phonemeDistance m) edits) = true := by
  rw [editDistance_eq_cell]
  constructor
  · have attained := cell_attained (phonemeDistance m : Text → Text → α) as.reverse bs.reverse
    rwa [List.reverse_reverse, List.reverse_reverse] at attained
  · intro edits aligns
    refine cell_least (by rwa [List.reverse_reverse, List.reverse_reverse]) ?_
    intro a ha b hb
    exact steady a (List.mem_reverse.mp ha) b (List.mem_reverse.mp hb)

end

theorem editDistance_least_syllables :
    (∀ a ∈ (["p", "a"] : List Text), ∀ b ∈ (["b"] : List Text),
        Steady (phonemeDistance syllables a b : Float)) ∧
      (∃ edits, Aligns edits ["p", "a"] ["b"] ∧
        alignmentCost (phonemeDistance syllables) edits =
          (editDistance syllables ["p", "a"] ["b"] : Float)) ∧
      atMost (editDistance syllables ["p", "a"] ["b"] : Float)
        (alignmentCost (phonemeDistance syllables) [.delete "p", .substitute "a" "b"]) = true := by
  have finite : ∀ a ∈ (["p", "a"] : List Text), ∀ b ∈ (["b"] : List Text),
      (phonemeDistance syllables a b : Float).isFinite = true := by
    decide +kernel
  have steady := fun a ha b hb => Floating.steady_of_isFinite (finite a ha b hb)
  obtain ⟨attained, least⟩ := editDistance_least syllables ["p", "a"] ["b"] steady
  exact ⟨steady, attained, least _ ⟨rfl, rfl⟩⟩

end SoundLaw
