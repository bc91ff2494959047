import SoundLaw.Proofs.Similarity.Likeness
import Mathlib.Data.Option.NAry

/-!
Distances computed with a watch on their divisions. A scale that loses every number got from a
division by zero, and every number got from a lost one, has the same distances as without the watch:
on their way there is no division by zero.
-/
namespace SoundLaw
open Scale

/-- A number, or nothing after a division by zero. -/
def Guarded (α : Type) : Type := Option α

namespace Guarded
variable {α : Type}

def of (x : α) : Guarded α := some x

def lost : Guarded α := none

variable [Scale α]

/-- What is lost is below all numbers, so that the lesser of two is lost with either of them. -/
instance : Scale (Guarded α) where
  add := Option.map₂ (· + ·)
  sub := Option.map₂ (· - ·)
  mul := Option.map₂ (· * ·)
  div x y := Option.bind y fun d => if equal d 0.0 then none else Option.map (· / d) x
  ofScientific m s e := some (OfScientific.ofScientific m s e)
  count k := some (count k)
  less
    | some x, some y => less x y
    | none, some _ => true
    | _, none => false
  atMost
    | some x, some y => atMost x y
    | some _, none => false
    | none, _ => true

variable {x y : α}

theorem add_of (x y : α) : of x + of y = of (x + y) := rfl

theorem div_of (divides : equal y 0.0 = false) : of x / of y = of (x / y) :=
  if_neg (Bool.eq_false_iff.mp divides)

theorem lesser_of (x y : α) : lesser (of x) (of y) = of (lesser x y) := (apply_ite of _ _ _).symm

theorem div_lost (x : Guarded α) (zero : equal y 0.0 = true) : x / of y = lost := if_pos zero

theorem lesser_lost (x : Guarded α) : lesser x lost = lost ∧ lesser lost x = lost := by
  cases x <;> exact ⟨rfl, rfl⟩

theorem cell_of (distance : Text → Text → α) (as bs : List Text) :
    cell (fun a b => of (distance a b)) as bs = of (cell distance as bs) := by
  induction as, bs using cell.induct with
  | case1 bs => rw [cell, cell]; rfl
  | case2 a as => rw [cell, cell]; rfl
  | case3 a as b bs diagonal above left =>
    have gap : (Weight.gap : Guarded α) = of Weight.gap := rfl
    rw [cell, cell, diagonal, above, left, gap, add_of, add_of, add_of, lesser_of, lesser_of]

end Guarded

open Guarded

section
variable {α : Type} [Scale α] [Measuring α] {m : Model} {a b as bs : List Text}

theorem equal_zero {x : α} (positive : less 0.0 x = true) : equal x 0.0 = false := by
  have notBack := ((Ordered.less_iff _ _).mp positive).2
  rw [equal, Bool.eq_false_iff.mpr notBack, Bool.false_and]

theorem otherOverlap_guarded (holds : Measuring.Holds α (a.length + b.length)) :
    (otherOverlap a b : Guarded α) = of (otherOverlap a b) := by
  unfold otherOverlap
  dsimp only
  split
  · rfl
  · rename_i some
    have counted := Measuring.holds_of_le (unclassified_count a b) holds
    exact div_of (equal_zero (Measuring.count_positive counted (Nat.pos_of_ne_zero some)))

theorem differing_guarded (holds : Measuring.Holds α (a.length + b.length)) :
    (differing a b : Guarded α) = of (differing a b) := by
  unfold differing
  rw [otherOverlap_guarded holds]
  split <;> split <;> split <;> rfl

theorem featureDistance_guarded (holds : Measuring.Holds α (a.length + b.length)) :
    (featureDistance a b : Guarded α) = of (featureDistance a b) := by
  have total : (0.0 + Weight.manner + Weight.place + Weight.voicing + Weight.other : Guarded α) =
      of (0.0 + Weight.manner + Weight.place + Weight.voicing + Weight.other) := rfl
  have divides : equal (1.0 : α) 0.0 = false := equal_zero (Measuring.clear_positive Measuring.one)
  rw [featureDistance_eq, featureDistance_eq, differing_guarded holds, total,
    Measuring.weights_sum, div_of divides]
  exact lesser_of _ _

theorem phonemeDistance_guarded (counts : Counts α m) (p q : Text) :
    (phonemeDistance m p q : Guarded α) = of (phonemeDistance m p q) := by
  unfold phonemeDistance
  by_cases same : p = q
  · rw [if_pos same, if_pos same]
    rfl
  · rw [if_neg same, if_neg same]
    split
    · rename_i fp fq first second
      have counted := counts _ (Model.features?_eq_some_iff.mp first) _
        (Model.features?_eq_some_iff.mp second)
      split
      · exact featureDistance_guarded counted
      · rfl
    · rfl

theorem editDistance_guarded (counts : Counts α m) (as bs : List Text) :
    (editDistance m as bs : Guarded α) = of (editDistance m as bs) := by
  have distances : (phonemeDistance m : Text → Text → Guarded α) =
      fun p q => of (phonemeDistance m p q) :=
    funext₂ (phonemeDistance_guarded counts)
  rw [editDistance_eq_cell, editDistance_eq_cell, distances, cell_of]

theorem normalizedDistance_guarded (counts : Counts α m)
    (holds : Measuring.Holds α (max as.length bs.length)) :
    (normalizedDistance m as bs : Guarded α) = of (normalizedDistance m as bs) := by
  unfold normalizedDistance
  dsimp only
  rw [editDistance_guarded counts]
  split
  · rfl
  · rename_i some
    have gaps : (count (max as.length bs.length) * Weight.gap : Guarded α) =
        of (count (max as.length bs.length) * Weight.gap) := rfl
    have clear := Measuring.gaps holds (Nat.pos_of_ne_zero some)
    rw [gaps, div_of (equal_zero (Measuring.clear_positive clear))]
    exact lesser_of _ _

end
end SoundLaw
