import SoundLaw.Number.Rounding
import Mathlib.Data.Nat.Log
import Mathlib.Tactic.Ring

/-!
Rounding keeps order, be it to whole numbers or to as many binary digits as a floating-point number
has.
-/
namespace SoundLaw

/-! ### To whole numbers -/

theorem roundedQuotient_mul (q : ℕ) {den : ℕ} (pos : 0 < den) :
    roundedQuotient (q * den) den = q := by
  rw [roundedQuotient, Nat.mul_mod_left, Nat.mul_div_cancel q pos, if_pos (by omega)]

theorem roundedQuotient_scale (num den : ℕ) {c : ℕ} (pos : 0 < c) :
    roundedQuotient (num * c) (den * c) = roundedQuotient num den := by
  have twice : 2 * (num % den * c) = 2 * (num % den) * c := by ring
  simp only [roundedQuotient, Nat.mul_div_mul_right num den pos, Nat.mul_mod_mul_right, twice,
    Nat.mul_lt_mul_right pos]

theorem roundedQuotient_mono (den : ℕ) {num num' : ℕ} (le : num ≤ num') :
    roundedQuotient num den ≤ roundedQuotient num' den := by
  have quotients : num / den ≤ num' / den := Nat.div_le_div_right le
  have rest := Nat.mod_add_div num den
  have rest' := Nat.mod_add_div num' den
  unfold roundedQuotient
  rcases quotients.lt_or_eq with lower | same
  · dsimp only
    split_ifs <;> omega
  · -- Between the same whole numbers the rests are in order.
    rw [same] at rest ⊢
    have rests : num % den ≤ num' % den := by omega
    dsimp only
    split_ifs <;> omega

theorem roundedQuotient_le {num den c : ℕ} (pos : 0 < den) (le : num ≤ c * den) :
    roundedQuotient num den ≤ c := by
  simpa only [roundedQuotient_mul c pos] using roundedQuotient_mono den le

theorem le_roundedQuotient {num den c : ℕ} (pos : 0 < den) (le : c * den ≤ num) :
    c ≤ roundedQuotient num den := by
  simpa only [roundedQuotient_mul c pos] using roundedQuotient_mono den le

/-! ### To 53 binary digits -/

/-- How many binary digits a number has beyond the first 53. -/
def surplus (n : ℕ) : ℕ := n.log2 - 52

def nearest (n : ℕ) : ℕ := roundedQuotient n (2 ^ surplus n) * 2 ^ surplus n

theorem surplus_mono {a b : ℕ} (le : a ≤ b) : surplus a ≤ surplus b := by
  have logs : a.log2 ≤ b.log2 := by
    rw [Nat.log2_eq_log_two, Nat.log2_eq_log_two]
    exact Nat.log_mono_right le
  unfold surplus
  omega

theorem lt_surplus (n : ℕ) : n < 2 ^ 53 * 2 ^ surplus n := by
  rw [← pow_add]
  have below := @Nat.lt_log2_self n
  exact below.trans_le (Nat.pow_le_pow_right (by omega) (by unfold surplus; omega))

theorem surplus_le {n : ℕ} (pos : 0 < surplus n) : 2 ^ 52 * 2 ^ surplus n ≤ n := by
  have nonzero : n ≠ 0 := by rintro rfl; simp [surplus] at pos
  rw [← pow_add]
  have above := Nat.log2_self_le nonzero
  exact (Nat.pow_le_pow_right (by omega) (by unfold surplus at pos ⊢; omega)).trans above

theorem nearest_mono {a b : ℕ} (le : a ≤ b) : nearest a ≤ nearest b := by
  unfold nearest
  rcases (surplus_mono le).lt_or_eq with fewer | same
  · -- A power of two with enough digits lies between the two.
    calc
      roundedQuotient a (2 ^ surplus a) * 2 ^ surplus a ≤ 2 ^ 53 * 2 ^ surplus a :=
        Nat.mul_le_mul_right _ (roundedQuotient_le (Nat.two_pow_pos _) (lt_surplus a).le)
      _ = 2 ^ 52 * 2 ^ (surplus a + 1) := by ring
      _ ≤ 2 ^ 52 * 2 ^ surplus b := Nat.mul_le_mul_left _ (Nat.pow_le_pow_right (by omega) fewer)
      _ ≤ roundedQuotient b (2 ^ surplus b) * 2 ^ surplus b :=
        Nat.mul_le_mul_right _ (le_roundedQuotient (Nat.two_pow_pos _) (surplus_le (by omega)))
  · rw [same]
    exact Nat.mul_le_mul_right _ (roundedQuotient_mono _ le)

theorem nearest_exact {m : ℕ} (k : ℕ) (short : m < 2 ^ 53) : nearest (m * 2 ^ k) = m * 2 ^ k := by
  have below : m * 2 ^ k < 2 ^ (53 + k) := by
    rw [pow_add]
    exact Nat.mul_lt_mul_of_pos_right short (Nat.two_pow_pos k)
  have few : surplus (m * 2 ^ k) ≤ k := by
    have digits := Nat.log_lt_of_lt_pow' (by omega) below
    rw [← Nat.log2_eq_log_two] at digits
    unfold surplus
    omega
  have multiple : m * 2 ^ k = m * 2 ^ (k - surplus (m * 2 ^ k)) * 2 ^ surplus (m * 2 ^ k) := by
    rw [mul_assoc, ← pow_add, Nat.sub_add_cancel few]
  rw [nearest]
  nth_rewrite 1 [multiple]
  rw [roundedQuotient_mul _ (Nat.two_pow_pos _), ← multiple]

end SoundLaw
