import SoundLaw.Similarity.Distance
import SoundLaw.Proofs.Number.Sums

/-!
Addition and the order of numbers. Adding a rational number keeps the order of rationals, and adding
a finite floating-point number that of floating-point numbers.
-/
namespace SoundLaw
open Scale

/-- Adding `c` keeps the order of numbers. -/
def Steady {α : Type} [Scale α] (c : α) : Prop :=
  ∀ x y : α, atMost x y = true → atMost (x + c) (y + c) = true

/-- A scale on which gaps add up: their multiples are numbers, and a gap more keeps the order. -/
class Scale.Adding (α : Type) [Scale α] : Prop extends Ordered α where
  gaps (k : Nat) : atMost (count k * Weight.gap : α) (count k * Weight.gap) = true
  gap : Steady (Weight.gap : α)

theorem steady_rat (c : Rat) : Steady c := by
  intro x y below
  simpa [atMost] using below

instance : Scale.Adding Rat where
  gaps _ := by simp [atMost]
  gap := steady_rat _

namespace Floating
open Float.Model UnpackedFloat

theorem atMost_iff (x y : Float) :
    atMost x y = true ↔ ∃ i ∈ rank x.toModel.unpack, ∃ j ∈ rank y.toModel.unpack, i ≤ j :=
  (decide_eq_true_iff.trans decide_eq_true_iff).trans
    (rank_le_iff (stored_unpack _) (stored_unpack _))

theorem rank_eq_some {x : UnpackedFloat} (number : x.isNaN = false) : ∃ i, rank x = some i := by
  cases x with
  | notANumber => cases number
  | _ => exact ⟨_, rfl⟩

theorem not_isNaN {x : UnpackedFloat} (finite : x.isFinite = true) : x.isNaN = false := by
  cases x with
  | notANumber => cases finite
  | _ => rfl

theorem atMost_self {x : Float} (number : x.toModel.unpack.isNaN = false) :
    atMost x x = true := by
  obtain ⟨i, hi⟩ := rank_eq_some number
  exact (atMost_iff x x).mpr ⟨i, hi, i, hi, le_refl i⟩

/-- Adding a finite number keeps the order, whatever is rounded off. -/
theorem steady_of_isFinite {c : Float} (finite : c.isFinite = true) : Steady c := by
  obtain ⟨k, hk⟩ := rank_eq_some (not_isNaN finite)
  intro x y below
  obtain ⟨i, hi, j, hj, le⟩ := (atMost_iff x y).mp below
  have sum {z : Float} {n : ℤ} (hn : n ∈ rank z.toModel.unpack) :
      plus k n ∈ rank (z + c).toModel.unpack :=
    rank_store_plus (stored_unpack _) (stored_unpack _) finite hn hk
  exact (atMost_iff _ _).mpr ⟨_, sum hi, _, sum hj, plus_mono k le⟩

end Floating

instance : Scale.Adding Float where
  gaps k := by
    obtain ⟨s, m, e, pos, gap⟩ : ∃ s m e pos,
        (Weight.gap : Float).toModel.unpack = .finite s m e pos :=
      ⟨.positive, _, _, _, by rfl⟩
    exact Floating.atMost_self (Floating.store_isNaN
      (Floating.mul_isNaN (Floating.ofNat_isNaN k) gap))
  gap := Floating.steady_of_isFinite (by decide)

end SoundLaw
