import SoundLaw.Similarity.Edit
import SoundLaw.Proofs.Number.Shares

/-!
Numbers that measure distances. They are zero or clearly above it: a sum is zero exactly when its
parts are, and dividing by a size takes nothing down to zero. Rational numbers measure in this sense
whatever the sizes are, and floating-point numbers as long as these have at most 53 digits.
-/
namespace SoundLaw
open Scale

namespace Scale
variable {α : Type} [Scale α]

def Amount (x : α) : Prop := x = 0.0 ∨ less 0.0 x = true

/-- A scale for distances: `Holds` says which sizes it counts, `Clear` which numbers are so far above
zero that no such size divides them down to it. -/
class Measuring (α : Type) [Scale α] extends Ordered α where
  Holds : Nat → Prop
  Clear : α → Prop
  holds_of_le {j k : Nat} : j ≤ k → Holds k → Holds j
  zero : atMost (0.0 : α) 0.0 = true
  antisymm {x y : α} : less 0.0 x = true → atMost x y = true → atMost y x = true → x = y
  clear_positive {x : α} : Clear x → less 0.0 x = true
  clear_of_atMost {x y : α} : Clear x → atMost x y = true → Clear y
  zero_add_zero : (0.0 + 0.0 : α) = 0.0
  atMost_add {x y : α} : Amount x → Amount y →
    atMost x (x + y) = true ∧ atMost y (x + y) = true
  manner : Clear Weight.manner
  place : Clear Weight.place
  voicing : Clear Weight.voicing
  gap : Clear Weight.gap
  one : Clear 1.0
  weights_sum : (0.0 + Weight.manner + Weight.place + Weight.voicing + Weight.other : α) = 1.0
  div_one {x : α} : Amount x → x / 1.0 = x
  count_positive {k : Nat} : Holds k → 0 < k → less 0.0 (count k : α) = true
  rest_none : ((1.0 - 1.0) * Weight.other : α) = 0.0
  rest_whole {k : Nat} : Holds k → 0 < k → ((1.0 - count k / count k) * Weight.other : α) = 0.0
  rest_part {j k : Nat} : Holds k → j < k → Clear ((1.0 - count j / count k) * Weight.other : α)
  no_gaps : (count 0 * Weight.gap : α) = 0.0
  gaps {k : Nat} : Holds k → 0 < k → Clear (count k * Weight.gap : α)
  zero_div_gaps {k : Nat} : Holds k → 0 < k → 0.0 / (count k * Weight.gap : α) = 0.0
  gaps_div_gaps {k : Nat} : Holds k → 0 < k →
    (count k * Weight.gap : α) / (count k * Weight.gap) = 1.0
  clear_div_gaps {x : α} {k : Nat} : Clear x → Holds k → 0 < k →
    less 0.0 (x / (count k * Weight.gap)) = true

end Scale

/-! ### Rational numbers -/

theorem rat_zero : (0.0 : Rat) = 0 := by norm_num

theorem rat_gaps {k : Nat} (pos : 0 < k) : (0 : Rat) < count k * Weight.gap := by
  have size : (0 : Rat) < k := Nat.cast_pos.mpr pos
  norm_num [count, Weight.gap, size]

instance : Scale.Measuring Rat where
  Holds _ := True
  Clear x := 0 < x
  holds_of_le _ _ := trivial
  zero := by simp [atMost]
  antisymm _ := by
    intro le ge
    exact le_antisymm (of_decide_eq_true le) (of_decide_eq_true ge)
  clear_positive := by
    intro x positive
    simpa [less, rat_zero] using positive
  clear_of_atMost := by
    intro x y positive le
    exact lt_of_lt_of_le positive (of_decide_eq_true le)
  zero_add_zero := by norm_num
  atMost_add := by
    have nonneg {x : Rat} (amount : Amount x) : 0 ≤ x := by
      rcases amount with rfl | positive
      · norm_num
      · exact (rat_zero ▸ of_decide_eq_true positive : 0 < x).le
    intro x y hx hy
    have first := nonneg hx
    have second := nonneg hy
    exact ⟨decide_eq_true (by linarith), decide_eq_true (by linarith)⟩
  manner := by norm_num [Weight.manner]
  place := by norm_num [Weight.place]
  voicing := by norm_num [Weight.voicing]
  gap := by norm_num [Weight.gap]
  one := by norm_num
  weights_sum := by norm_num [Weight.manner, Weight.place, Weight.voicing, Weight.other]
  div_one := by
    intro x _
    norm_num
  count_positive := by
    intro k _ pos
    simpa [less, rat_zero, count] using pos
  rest_none := by norm_num
  rest_whole := by
    intro k _ pos
    have whole : (k : Rat) ≠ 0 := Nat.cast_ne_zero.mpr pos.ne'
    simp only [count, div_self whole]
    norm_num
  rest_part := by
    intro j k _ less
    have part : (j : Rat) / k < 1 := by
      rw [div_lt_one (Nat.cast_pos.mpr (by omega))]
      exact Nat.cast_lt.mpr less
    norm_num [count, Weight.other]
    exact part
  no_gaps := by simp [count, rat_zero]
  gaps := by
    intro k _ pos
    exact rat_gaps pos
  zero_div_gaps := by
    intro k _ pos
    rw [rat_zero, zero_div]
  gaps_div_gaps := by
    intro k _ pos
    rw [div_self (rat_gaps pos).ne']
    norm_num
  clear_div_gaps := by
    intro x k positive _ pos
    have above : (0.0 : Rat) < x / (count k * Weight.gap) := by
      rw [rat_zero]
      exact div_pos positive (rat_gaps pos)
    exact decide_eq_true above

/-! ### Floating-point numbers -/

namespace Floating

/-- A bound below all numbers that distances are made of, in units of the least positive number. -/
def sliver : Nat := 2 ^ 1000

def Clear (x : Float) : Prop := ∃ r, Worth x r ∧ sliver ≤ r

theorem sliver_le_sixteenth : sliver ≤ sixteenth := by decide +kernel

theorem short_sliver : Short sliver := by
  rw [sliver]
  exact ⟨1, _, by omega, (Nat.one_mul _).symm⟩

theorem sliver_of_grain : sliver * unity ≤ grain * sixteenth := by decide +kernel

theorem sliver_of_size : 2 ^ 53 ≤ sliver := by decide +kernel

theorem clear_between {x : Float} (low : atMost 0.0625 x = true) (high : atMost x 1.0 = true) :
    Clear x := by
  obtain ⟨r, value, least, _⟩ := worth_between low high
  exact ⟨r, value, sliver_le_sixteenth.trans least⟩

theorem Clear.positive {x : Float} (clear : Clear x) : less 0.0 x = true := by
  obtain ⟨r, value, least⟩ := clear
  have pos : 0 < r := (Nat.two_pow_pos 53).trans_le (sliver_of_size.trans least)
  exact (worth_zero.less_iff value).mpr pos

theorem worth_gaps {k : Nat} (pos : 0 < k) (small : k < 2 ^ 53) :
    ∃ t, Worth (count k * Weight.gap) t ∧ sixteenth ≤ t ∧ t ≤ k * unity := by
  refine (worth_count small).mul_between (Nat.mul_pos pos unity_pos) (count_lt_limit small)
    (by decide) (by decide) worth_sixteenth.short ?_
  rw [Nat.mul_comm sixteenth]
  exact Nat.mul_le_mul_right sixteenth (Nat.le_mul_of_pos_left unity pos)

theorem divisor_gaps {k : Nat} (pos : 0 < k) (small : k < 2 ^ 53) :
    Divisor (count k * Weight.gap) := by
  obtain ⟨t, value, least, most⟩ := worth_gaps pos small
  have some : 0 < t := (pow_pos (by omega) _ : 0 < sixteenth).trans_le least
  exact ⟨t, value, some, most.trans_lt (count_lt_limit small)⟩

theorem Clear.div_gaps {x : Float} {k : Nat} (clear : Clear x) (pos : 0 < k)
    (small : k < 2 ^ 53) : less 0.0 (x / (count k * Weight.gap)) = true := by
  obtain ⟨r, value, least⟩ := clear
  obtain ⟨t, gaps, _, most⟩ := worth_gaps pos small
  obtain ⟨t', gaps', some, finite⟩ := divisor_gaps pos small
  obtain rfl : t = t' := Option.some.inj (gaps.symm.trans gaps')
  rcases value.le_limit.lt_or_eq with below | infinite
  · have some' : 0 < r := (Nat.two_pow_pos 53).trans_le (sliver_of_size.trans least)
    obtain ⟨u, rounds, quotient⟩ := value.div gaps some' some below finite
    have one : 1 ≤ u := by
      refine rounds.above ⟨1, 0, by omega, rfl⟩ ?_
      calc
        1 * t ≤ k * unity := by rwa [Nat.one_mul]
        _ ≤ r * unity := Nat.mul_le_mul_right unity (small.le.trans (sliver_of_size.trans least))
    exact (worth_zero.less_iff quotient).mpr (lt_min one limit_pos)
  · rw [infinite] at value
    exact (worth_zero.less_iff (value.limit_div gaps some finite)).mpr limit_pos

theorem clear_rest {j k : Nat} (small : k < 2 ^ 53) (less : j < k) :
    Clear ((1.0 - count j / count k) * Weight.other) := by
  have low : atMost 0.0625 (Weight.other : Float) = true := by decide
  have high : atMost (Weight.other : Float) 1.0 = true := by decide
  obtain ⟨r, value, least, most⟩ := worth_rest small less
  obtain ⟨t, product, above, _⟩ := value.mul_between (grain_pos.trans_le least)
    (most.trans_lt one_lt_limit) low high short_sliver
    (sliver_of_grain.trans (Nat.mul_le_mul_right sixteenth least))
  exact ⟨t, product, above⟩

theorem antisymm {x y : Float} (positive : less 0.0 x = true) (le : atMost x y = true)
    (ge : atMost y x = true) : x = y := by
  obtain ⟨r, _, value⟩ := worth_of_less positive
  obtain ⟨s, _, value'⟩ := worth_of_less (Ordered.less_of_less positive le)
  have same := Nat.le_antisymm ((value.atMost_iff value').mp le) ((value'.atMost_iff value).mp ge)
  rw [same] at value
  exact value.unique value'

theorem atMost_add {x y : Float} (first : Amount x) (second : Amount y) :
    atMost x (x + y) = true ∧ atMost y (x + y) = true := by
  obtain ⟨r, value⟩ := worth_of_amount first
  obtain ⟨s, value'⟩ := worth_of_amount second
  have sum := value.add value'
  exact ⟨(value.atMost_iff sum).mpr (value.le_fit (Nat.le_add_right r s)),
    (value'.atMost_iff sum).mpr (value'.le_fit (Nat.le_add_left s r))⟩

end Floating

open Floating

instance : Scale.Measuring Float where
  Holds k := k < 2 ^ 53
  Clear := Floating.Clear
  holds_of_le le small := le.trans_lt small
  zero := by decide
  antisymm := Floating.antisymm
  clear_positive := Floating.Clear.positive
  clear_of_atMost := by
    rintro x y ⟨r, value, least⟩ le
    obtain ⟨s, _, value'⟩ := worth_of_less (Ordered.less_of_less (Clear.positive ⟨r, value, least⟩) le)
    exact ⟨s, value', least.trans ((value.atMost_iff value').mp le)⟩
  zero_add_zero := by decide
  atMost_add := Floating.atMost_add
  manner := clear_between (by decide) (by decide)
  place := clear_between (by decide) (by decide)
  voicing := clear_between (by decide) (by decide)
  gap := clear_between (by decide) (by decide)
  one := clear_between (by decide) (by decide)
  weights_sum := by decide
  div_one amount := by
    obtain ⟨r, value⟩ := worth_of_amount amount
    exact value.div_one
  count_positive small pos := (divisor_count pos small).positive
  rest_none := by decide
  rest_whole small pos := by
    rw [(divisor_count pos small).div_self]
    decide
  rest_part := clear_rest
  no_gaps := by decide
  gaps small pos := by
    obtain ⟨t, value, least, _⟩ := worth_gaps pos small
    exact ⟨t, value, sliver_le_sixteenth.trans least⟩
  zero_div_gaps small pos := (divisor_gaps pos small).zero_div
  gaps_div_gaps small pos := (divisor_gaps pos small).div_self
  clear_div_gaps clear small pos := clear.div_gaps pos small

end SoundLaw
