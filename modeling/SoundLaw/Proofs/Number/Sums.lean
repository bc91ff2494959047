import SoundLaw.Proofs.Number.Storage
import SoundLaw.Proofs.Similarity.Order

/-!
Floating-point numbers in a row, in units of the least positive one. A sum of finite numbers is the
exact sum with its surplus digits rounded off, so adding a finite number keeps the order.
-/
namespace SoundLaw.Floating
open Float.Model UnpackedFloat

/-! ### The row of numbers -/

theorem magnitude_lt {m n : ℕ} {e f : ℤ} (first : Canonical m e) (second : Canonical n f)
    (less : e < f) : magnitude m e < magnitude n f := by
  have least := first.least
  have full : 2 ^ 52 ≤ n := second.full.resolve_right (by omega)
  have exponents : (e + 1074).toNat + 1 ≤ (f + 1074).toNat := by omega
  calc
    m * 2 ^ (e + 1074).toNat < 2 ^ 53 * 2 ^ (e + 1074).toNat :=
      Nat.mul_lt_mul_of_pos_right first.short (Nat.two_pow_pos _)
    _ = 2 ^ 52 * 2 ^ ((e + 1074).toNat + 1) := by ring
    _ ≤ n * 2 ^ (f + 1074).toNat :=
      Nat.mul_le_mul full (Nat.pow_le_pow_right (by omega) exponents)

theorem magnitude_le_iff {m n : ℕ} {e f : ℤ} (first : Canonical m e) (second : Canonical n f) :
    magnitude m e ≤ magnitude n f ↔ e < f ∨ e = f ∧ m ≤ n := by
  rcases lt_trichotomy e f with less | rfl | greater
  · simp [less, (magnitude_lt first second less).le]
  · simp [magnitude]
  · have not := (magnitude_lt second first greater).not_ge
    simp only [not, false_iff, not_or, not_and]
    omega

def limit : ℕ := magnitude (2 ^ 52) 972

theorem canonical_limit : Canonical (2 ^ 52) 972 := ⟨by omega, by omega, Or.inl le_rfl⟩

theorem magnitude_lt_limit {m : ℕ} {e : ℤ} (canonical : Canonical m e) (fits : e ≤ 971) :
    magnitude m e < limit :=
  magnitude_lt canonical canonical_limit (by omega)

theorem limit_le_magnitude {m : ℕ} {e : ℤ} (canonical : Canonical m e) (great : 972 ≤ e) :
    limit ≤ magnitude m e := by
  have full := canonical.full
  exact (magnitude_le_iff canonical_limit canonical).mpr (by omega)

def rank : UnpackedFloat → Option ℤ
  | .notANumber => none
  | .infinity s => some (s.apply limit)
  | .zero _ => some 0
  | .finite s m e _ => some (s.apply (magnitude m e))

/-- A finite number lies between zero and the limit, on the side of its sign. -/
def Within : UnpackedFloat → Prop
  | .finite _ m e _ => 0 < magnitude m e ∧ magnitude m e < limit
  | _ => True

theorem Stored.within {x : UnpackedFloat} (stored : Stored x) : Within x := by
  cases x with
  | finite s m e pos => exact ⟨magnitude_pos pos e, magnitude_lt_limit stored.1 stored.2⟩
  | _ => trivial

theorem rank_le_iff {a b : UnpackedFloat} (first : Stored a) (second : Stored b) :
    a.le b = true ↔ ∃ x ∈ rank a, ∃ y ∈ rank b, x ≤ y := by
  have positive : 0 < limit := magnitude_pos (by omega) _
  have within := first.within
  have within' := second.within
  rw [le_iff]
  rcases a with (_ | _) | _ | (_ | _) | ⟨_ | _, m, e, hm⟩ <;>
    rcases b with (_ | _) | _ | (_ | _) | ⟨_ | _, n, f, hn⟩ <;>
      simp only [place, rank, Sign.apply, Within, Prod.Lex.toLex_le_toLex, Option.mem_def,
        Option.some.injEq, exists_eq_left', exists_false, true_and, false_and, and_false, or_false,
        reduceCtorEq] at within within' ⊢
  -- Kinds compare as their bounds do; two finite numbers of one sign by exponent and digits.
  any_goals omega
  · have order := magnitude_le_iff second.1 first.1
    omega
  · have order := magnitude_le_iff first.1 second.1
    omega

/-! ### Sums -/

def fitted (z : ℤ) : ℤ :=
  if 0 ≤ z then (min (nearest z.toNat) limit : ℕ) else -(min (nearest (-z).toNat) limit : ℕ)

theorem fitted_mono {y z : ℤ} (le : y ≤ z) : fitted y ≤ fitted z := by
  unfold fitted
  by_cases first : 0 ≤ y
  · have rounded : nearest y.toNat ≤ nearest z.toNat := nearest_mono (Int.toNat_le_toNat le)
    rw [if_pos first, if_pos (first.trans le)]
    omega
  · by_cases second : 0 ≤ z
    · rw [if_neg first, if_pos second]
      omega
    · have rounded : nearest (-z).toNat ≤ nearest (-y).toNat := nearest_mono (by omega)
      rw [if_neg first, if_neg second]
      omega

theorem fitted_apply (s : Sign) {n : ℕ} (pos : 0 < n) :
    fitted (s.apply n) = s.apply (min (nearest n) limit : ℕ) := by
  cases s with
  | positive =>
    rw [Sign.apply, fitted, if_pos (by omega), Int.toNat_natCast]
    rfl
  | negative =>
    rw [Sign.apply, fitted, if_neg (by omega), neg_neg, Int.toNat_natCast]
    rfl

theorem rank_store_rounded {s : Sign} {n : ℕ} {x : UnpackedFloat} (rounded : Rounded s n x) :
    rank (store x) = some (s.apply (min n limit : ℕ)) := by
  obtain ⟨m, e, pos, rfl, canonical, rfl⟩ := rounded
  by_cases fits : e ≤ 971
  · rw [store_finite s pos canonical fits, min_eq_left (magnitude_lt_limit canonical fits).le]
    rfl
  · rw [store_overflow s pos (by omega), min_eq_right (limit_le_magnitude canonical (by omega))]
    rfl

theorem fitted_zero : fitted 0 = 0 := by
  have exact : nearest 0 = 0 := by simpa using @nearest_exact 0 0 (by omega)
  rw [fitted, if_pos le_rfl, Int.toNat_zero, exact, Nat.zero_min]
  rfl

theorem apply_magnitude (s : Sign) (m : ℕ) (e : ℤ) :
    s.apply (magnitude m e) = s.apply m * 2 ^ (e + 1074).toNat := by
  cases s with
  | positive => simp [Sign.apply, magnitude]
  | negative => simp [Sign.apply, magnitude]

theorem rank_store_round (s : Sign) {m : ℕ} {e : ℤ} (pos : 0 < m) (least : -1074 ≤ e) :
    rank (store (round .binary64 s m e)) = some (fitted (s.apply m * 2 ^ (e + 1074).toNat)) := by
  rw [rank_store_rounded (round_rounded s pos least), ← apply_magnitude,
    fitted_apply s (magnitude_pos pos e)]

theorem rank_store_normalize (z : ℤ) {e : ℤ} (least : -1074 ≤ e) (s : Sign) :
    rank (store (UnpackedFloat.normalize .binary64 z e s)) = some (fitted (z * 2 ^ (e + 1074).toNat)) := by
  unfold UnpackedFloat.normalize
  split
  · rename_i compared
    have less : z < 0 := Int.compare_eq_lt.mp compared
    have same : Sign.negative.apply (-z).toNat = z := by rw [Sign.apply]; omega
    rw [rank_store_round .negative (by omega) least, same]
  · rename_i compared
    rw [Int.compare_eq_eq.mp compared, zero_mul, fitted_zero, store_zero]
    rfl
  · rename_i compared
    have greater : 0 < z := Int.compare_eq_gt.mp compared
    have same : Sign.positive.apply z.toNat = z := by rw [Sign.apply]; omega
    rw [rank_store_round .positive (by omega) least, same]

theorem fitted_rank {x : UnpackedFloat} {r : ℤ} (stored : Stored x) (finite : x.isFinite = true)
    (ranked : rank x = some r) : fitted r = r := by
  cases x with
  | notANumber => cases finite
  | infinity s => cases finite
  | zero s =>
    cases ranked
    exact fitted_zero
  | finite s m e pos =>
    cases ranked
    rw [fitted_apply s (magnitude_pos pos e), magnitude, nearest_exact _ stored.1.short,
      ← magnitude, min_eq_left (magnitude_lt_limit stored.1 stored.2).le]

/-- A sum is the exact sum, rounded. -/
theorem rank_store_add {a b : UnpackedFloat} {x y : ℤ} (first : Stored a) (second : Stored b)
    (finite : a.isFinite = true) (finite' : b.isFinite = true) (hx : rank a = some x)
    (hy : rank b = some y) :
    rank (store (UnpackedFloat.add .binary64 a b)) = some (fitted (x + y)) := by
  cases a with
  | notANumber => cases finite
  | infinity s => cases finite
  | zero s =>
    cases hx
    rw [zero_add, fitted_rank second finite' hy, ← hy]
    cases b with
    | notANumber => cases finite'
    | infinity s' => cases finite'
    | zero s' => cases s <;> cases s' <;> rfl
    | finite s' n f hn => exact congrArg rank (store_stored second finite')
  | finite s m e hm =>
    cases b with
    | notANumber => cases finite'
    | infinity s' => cases finite'
    | zero s' =>
      cases hy
      rw [add_zero, fitted_rank first finite hx, ← hx]
      exact congrArg rank (store_stored first finite)
    | finite s' n f hn =>
      have least : -1074 ≤ min e f := le_min first.1.least second.1.least
      have below : e = min e f + (e - min e f).toNat := by omega
      have below' : f = min e f + (f - min e f).toNat := by omega
      cases hx
      cases hy
      show rank (store (UnpackedFloat.normalize .binary64 (s.apply (m <<< (e - min e f).toNat : ℕ) +
        s'.apply (n <<< (f - min e f).toNat : ℕ)) (min e f) .positive)) = _
      rw [rank_store_normalize _ least, add_mul, ← apply_magnitude, ← apply_magnitude,
        magnitude_shiftLeft _ _ least, magnitude_shiftLeft _ _ least, ← below, ← below']

def plus (y x : ℤ) : ℤ := if x.natAbs < limit then fitted (x + y) else x

theorem natAbs_apply (s : Sign) (n : ℕ) : (s.apply n).natAbs = n := by
  cases s <;> simp [Sign.apply]

theorem rank_natAbs_lt {x : UnpackedFloat} {r : ℤ} (stored : Stored x) (finite : x.isFinite = true)
    (ranked : rank x = some r) : r.natAbs < limit := by
  cases x with
  | notANumber => cases finite
  | infinity s => cases finite
  | zero s =>
    cases ranked
    exact magnitude_pos (by omega) _
  | finite s m e pos =>
    cases ranked
    rw [natAbs_apply]
    exact magnitude_lt_limit stored.1 stored.2

theorem rank_store_plus {a b : UnpackedFloat} {x y : ℤ} (first : Stored a) (second : Stored b)
    (finite : b.isFinite = true) (hx : rank a = some x) (hy : rank b = some y) :
    rank (store (UnpackedFloat.add .binary64 a b)) = some (plus y x) := by
  cases finite' : a.isFinite with
  | true =>
    rw [rank_store_add first second finite' finite hx hy, plus,
      if_pos (rank_natAbs_lt first finite' hx)]
  | false =>
    cases a with
    | notANumber => cases hx
    | zero s => cases finite'
    | finite s m e pos => cases finite'
    | infinity s =>
      cases hx
      have same : UnpackedFloat.add .binary64 (.infinity s) b = .infinity s := by
        cases b with
        | notANumber => cases finite
        | infinity s' => cases finite
        | zero s' => rfl
        | finite s' n f hn => rfl
      have beyond : ¬ (s.apply limit).natAbs < limit := by
        rw [natAbs_apply]
        exact lt_irrefl limit
      rw [same, store_infinity, plus, if_neg beyond]
      rfl

theorem fitted_bounds (z : ℤ) : -limit ≤ fitted z ∧ fitted z ≤ limit := by
  unfold fitted
  split <;> omega

theorem plus_mono (c : ℤ) {x y : ℤ} (le : x ≤ y) : plus c x ≤ plus c y := by
  have first := fitted_bounds (x + c)
  have second := fitted_bounds (y + c)
  have inner : fitted (x + c) ≤ fitted (y + c) := fitted_mono (by omega)
  unfold plus
  split_ifs <;> omega

end SoundLaw.Floating
