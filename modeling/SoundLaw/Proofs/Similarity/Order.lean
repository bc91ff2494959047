import SoundLaw.Similarity.Scale
import Mathlib.Data.Prod.Lex
import Mathlib.Algebra.Order.Ring.Rat

/-!
How the numbers of a scale compare. All numbers have places in a row and compare as these do; what
is no number, such as the undefined quotient of floating-point arithmetic, compares with nothing.
Rationals and floating-point numbers are ordered in this sense.
-/
namespace SoundLaw
open Scale

/-- A scale on which any two numbers compare. What is at most itself is a number. -/
class Scale.Ordered (α : Type) [Scale α] : Prop where
  less_iff (a b : α) : less a b = true ↔ atMost a b = true ∧ ¬ atMost b a = true
  trans {a b c : α} : atMost a b = true → atMost b c = true → atMost a c = true
  ends {a b : α} : atMost a b = true → atMost a a = true ∧ atMost b b = true
  total {a b : α} : atMost a a = true → atMost b b = true → atMost a b = true ∨ atMost b a = true

namespace Scale

/-- Numbers that neither exceeds the other. -/
def equal {α : Type} [Scale α] (a b : α) : Bool := atMost a b && atMost b a

namespace Ordered
variable {α β : Type} [Scale α] [LinearOrder β]

theorem of_rank (rank : α → Option β)
    (atMost_iff : ∀ a b : α, atMost a b = true ↔ ∃ x ∈ rank a, ∃ y ∈ rank b, x ≤ y)
    (less_iff : ∀ a b : α, less a b = true ↔ ∃ x ∈ rank a, ∃ y ∈ rank b, x < y) : Ordered α where
  less_iff a b := by
    rw [less_iff, atMost_iff, atMost_iff]
    cases rank a <;> cases rank b <;> simp
    exact le_of_lt
  trans {a b c} := by
    rw [atMost_iff, atMost_iff, atMost_iff]
    rintro ⟨x, hx, y, hy, below⟩ ⟨y', hy', z, hz, above⟩
    obtain rfl := Option.mem_unique hy hy'
    exact ⟨x, hx, z, hz, below.trans above⟩
  ends {a b} := by
    rw [atMost_iff, atMost_iff, atMost_iff]
    rintro ⟨x, hx, y, hy, _⟩
    exact ⟨⟨x, hx, x, hx, le_refl x⟩, ⟨y, hy, y, hy, le_refl y⟩⟩
  total {a b} := by
    rw [atMost_iff, atMost_iff, atMost_iff, atMost_iff]
    rintro ⟨x, hx, _⟩ ⟨y, hy, _⟩
    rcases le_total x y with below | above
    · exact Or.inl ⟨x, hx, y, hy, below⟩
    · exact Or.inr ⟨y, hy, x, hx, above⟩

theorem less_of_less [Ordered α] {x y z : α} (first : less x y = true)
    (second : atMost y z = true) : less x z = true := by
  obtain ⟨below, notBack⟩ := (Ordered.less_iff x y).mp first
  refine (Ordered.less_iff x z).mpr ⟨Ordered.trans below second, fun back => ?_⟩
  exact notBack (Ordered.trans second back)

end Ordered
end Scale

instance : Scale.Ordered Rat := .of_rank some (by simp [atMost]) (by simp [less])

namespace Floating
open Float.Model UnpackedFloat

/-- The place of a floating-point number: first its sign and kind, then its exponent, then its
digits. -/
def place : UnpackedFloat → Option (ℤ ×ₗ ℤ ×ₗ ℤ)
  | .notANumber => none
  | .infinity .negative => some (toLex (-2, toLex (0, 0)))
  | .finite .negative m e _ => some (toLex (-1, toLex (-e, -m)))
  | .zero _ => some (toLex (0, toLex (0, 0)))
  | .finite .positive m e _ => some (toLex (1, toLex (e, m)))
  | .infinity .positive => some (toLex (2, toLex (0, 0)))

theorem then_isGE (e f : ℤ) (m n : ℕ) :
    ((compare e f).then (compare m n)).isGE = true ↔ f < e ∨ e = f ∧ n ≤ m := by
  rw [← Ordering.isLE_swap, Ordering.swap_then, Int.compare_swap, Nat.compare_swap,
    Ordering.isLE_then_iff_or, compare_lt_iff_lt, compare_eq_iff_eq, Nat.isLE_compare,
    @eq_comm ℤ f e]

-- Both orders compare kind by kind; only the signs of infinities and two finite numbers of the
-- same sign are left to the orders of their parts.
theorem le_iff (a b : UnpackedFloat) :
    a.le b = true ↔ ∃ x ∈ place a, ∃ y ∈ place b, x ≤ y := by
  rcases a with (_ | _) | _ | (_ | _) | ⟨_ | _, m, e, _⟩ <;>
    rcases b with (_ | _) | _ | (_ | _) | ⟨_ | _, n, f, _⟩ <;>
      dsimp only [UnpackedFloat.le, UnpackedFloat.compare, place] <;>
        simp [Prod.Lex.toLex_le_toLex, then_isGE, Ordering.isLE_then_iff_or, compare_lt_iff_lt,
          Nat.isLE_compare]
  all_goals rfl

theorem lt_iff (a b : UnpackedFloat) :
    a.lt b = true ↔ ∃ x ∈ place a, ∃ y ∈ place b, x < y := by
  rcases a with (_ | _) | _ | (_ | _) | ⟨_ | _, m, e, _⟩ <;>
    rcases b with (_ | _) | _ | (_ | _) | ⟨_ | _, n, f, _⟩ <;>
      dsimp only [UnpackedFloat.lt, UnpackedFloat.compare, place] <;>
        simp [Prod.Lex.toLex_lt_toLex, Ordering.then_eq_lt, Ordering.then_eq_gt,
          compare_lt_iff_lt, compare_gt_iff_gt]
  rfl

end Floating

instance : Scale.Ordered Float :=
  .of_rank (fun x => Floating.place x.toModel.unpack)
    (fun _ _ => (decide_eq_true_iff.trans decide_eq_true_iff).trans (Floating.le_iff _ _))
    (fun _ _ => (decide_eq_true_iff.trans decide_eq_true_iff).trans (Floating.lt_iff _ _))

end SoundLaw
