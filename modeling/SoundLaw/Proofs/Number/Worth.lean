import SoundLaw.Proofs.Number.Quotients
import SoundLaw.Proofs.Similarity.Adding

/-!
Floating-point numbers with a plus sign by what they are worth, in units of the least positive one.
The number of a worth is unique; numbers compare as their worths do; and sums, differences, products
and quotients are worth the exact result, rounded.
-/
namespace SoundLaw.Floating
open Float.Model UnpackedFloat Scale

/-- What a number with a plus sign is worth. -/
def Worth (x : Float) (r : ℕ) : Prop := worth x.toModel.unpack = some r

variable {x y : Float} {r s : ℕ}

/-! ### Worth and order -/

theorem stored (x : Float) : Stored x.toModel.unpack := stored_unpack _

theorem short_limit : Short limit := ⟨2 ^ 52, _, by omega, rfl⟩

theorem limit_pos : 0 < limit := magnitude_pos (by omega) _

theorem Short.nearest (short : Short r) : nearest r = r := by
  obtain ⟨m, k, digits, rfl⟩ := short
  exact nearest_exact k digits

theorem Worth.cases (value : Worth x r) :
    r = 0 ∧ x.toModel.unpack = .zero .positive ∨
      r = limit ∧ x.toModel.unpack = .infinity .positive ∨
      0 < r ∧ r < limit ∧ ∃ m e hm, x.toModel.unpack = .finite .positive m e hm ∧
        Canonical m e ∧ r = magnitude m e := by
  have stored := stored x
  unfold Worth at value
  rcases unpacked : x.toModel.unpack with (_ | _) | _ | (_ | _) | ⟨_ | _, m, e, hm⟩ <;>
    rw [unpacked] at value stored <;> simp only [worth, reduceCtorEq] at value
  · exact Or.inr (Or.inl ⟨(Option.some.inj value).symm, rfl⟩)
  · exact Or.inl ⟨(Option.some.inj value).symm, rfl⟩
  · have same := (Option.some.inj value).symm
    have pos := magnitude_pos hm e
    have below := magnitude_lt_limit stored.1 stored.2
    rw [← same] at pos below
    exact Or.inr (Or.inr ⟨pos, below, m, e, hm, rfl, stored.1, same⟩)

theorem Worth.finite (value : Worth x r) (pos : 0 < r) (below : r < limit) :
    ∃ m e hm, x.toModel.unpack = .finite .positive m e hm ∧ Canonical m e ∧ r = magnitude m e := by
  rcases value.cases with ⟨none, _⟩ | ⟨all, _⟩ | ⟨_, _, finite⟩
  · exact absurd none pos.ne'
  · exact absurd all below.ne
  · exact finite

theorem Worth.short (value : Worth x r) : Short r := by
  rcases value.cases with ⟨none, _⟩ | ⟨all, _⟩ | ⟨_, _, m, e, _, _, c, same⟩
  · exact ⟨0, 0, by omega, none⟩
  · rw [all]
    exact short_limit
  · exact ⟨m, _, c.short, same⟩

theorem Worth.le_limit (value : Worth x r) : r ≤ limit := by
  rcases value.cases with ⟨none, _⟩ | ⟨all, _⟩ | ⟨_, below, _⟩
  · rw [none]
    exact Nat.zero_le _
  · exact all.le
  · exact below.le

theorem magnitude_inj {m n : ℕ} {e f : ℤ} (first : Canonical m e) (second : Canonical n f)
    (same : magnitude m e = magnitude n f) : m = n ∧ e = f := by
  have le := (magnitude_le_iff first second).mp same.le
  have ge := (magnitude_le_iff second first).mp same.ge
  omega

theorem unpack_inj (same : x.toModel.unpack = y.toModel.unpack) : x = y := by
  obtain ⟨⟨⟨bits⟩, valid⟩⟩ := x
  obtain ⟨⟨⟨bits'⟩, valid'⟩⟩ := y
  have equal : bits = bits' := (unpack_inj_of_valid valid valid').mp same
  subst equal
  rfl

theorem Worth.unique (first : Worth x r) (second : Worth y r) : x = y := by
  refine unpack_inj ?_
  have above := limit_pos
  rcases first.cases with ⟨h, a⟩ | ⟨h, a⟩ | ⟨pos, below, m, e, hm, a, c, v⟩
  · rcases second.cases with ⟨_, b⟩ | ⟨h', _⟩ | ⟨pos', _⟩
    · exact a.trans b.symm
    · omega
    · omega
  · rcases second.cases with ⟨h', _⟩ | ⟨_, b⟩ | ⟨_, below', _⟩
    · omega
    · exact a.trans b.symm
    · omega
  · obtain ⟨n, f, hn, b, c', v'⟩ := second.finite pos below
    obtain ⟨rfl, rfl⟩ := magnitude_inj c c' (v.symm.trans v')
    exact a.trans b.symm

theorem Worth.atMost_iff (first : Worth x r) (second : Worth y s) :
    atMost x y = true ↔ r ≤ s := by
  rw [Floating.atMost_iff, rank_of_worth first, rank_of_worth second]
  simp

theorem Worth.less_iff (first : Worth x r) (second : Worth y s) : less x y = true ↔ r < s := by
  rw [Ordered.less_iff, first.atMost_iff second, second.atMost_iff first]
  omega

theorem unpack_zero : (0.0 : Float).toModel.unpack = .zero .positive := by rfl

theorem worth_zero : Worth 0.0 0 := congrArg worth unpack_zero

theorem worth_of_less (positive : less 0.0 x = true) : ∃ r, 0 < r ∧ Worth x r := by
  obtain ⟨below, not⟩ := (Ordered.less_iff _ _).mp positive
  rw [Floating.atMost_iff, rank_of_worth worth_zero] at below not
  obtain ⟨_, ⟨⟩, j, ranked, le⟩ := below
  have greater : 0 < j := by
    refine lt_of_le_of_ne le fun none => not ⟨j, ranked, 0, rfl, none.ge⟩
  refine ⟨j.toNat, by omega, worth_of_rank (by omega) ?_⟩
  rw [Int.toNat_of_nonneg le]
  exact ranked

theorem worth_of_amount (amount : x = 0.0 ∨ less 0.0 x = true) : ∃ r, Worth x r := by
  rcases amount with rfl | positive
  · exact ⟨0, worth_zero⟩
  · obtain ⟨r, _, value⟩ := worth_of_less positive
    exact ⟨r, value⟩

/-! ### Sums and differences -/

def fit (n : ℕ) : ℕ := min (nearest n) limit

theorem fitted_natCast (n : ℕ) : fitted n = (fit n : ℕ) := by
  rw [fitted, if_pos (Int.natCast_nonneg n), Int.toNat_natCast, fit]

theorem le_fit {n : ℕ} (short : Short r) (bounded : r ≤ limit) (le : r ≤ n) : r ≤ fit n :=
  le_min (short.nearest ▸ nearest_mono le) bounded

theorem fit_le_limit (n : ℕ) : fit n ≤ limit := Nat.min_le_right _ _

theorem fit_of_short (short : Short r) (bounded : r ≤ limit) : fit r = r := by
  rw [fit, short.nearest, min_eq_left bounded]

theorem fit_le {n : ℕ} (short : Short r) (le : n ≤ r) : fit n ≤ r :=
  (Nat.min_le_left _ _).trans (short.nearest ▸ nearest_mono le)

theorem Worth.le_fit (value : Worth x r) {n : ℕ} (le : r ≤ n) : r ≤ fit n :=
  Floating.le_fit value.short value.le_limit le

theorem unpack_add (x y : Float) : (x + y).toModel.unpack =
    store (UnpackedFloat.add .binary64 x.toModel.unpack y.toModel.unpack) := rfl

theorem Worth.plus_eq (value : Worth x r) (s : ℕ) : plus (s : ℤ) r = (fit (r + s) : ℕ) := by
  rw [plus, Int.natAbs_natCast]
  split
  · rw [← Nat.cast_add, fitted_natCast]
  · rename_i infinite
    have all : r = limit := Nat.le_antisymm value.le_limit (Nat.le_of_not_lt infinite)
    have most := fit_le_limit (r + s)
    have least := value.le_fit (Nat.le_add_right r s)
    rw [Nat.le_antisymm (most.trans all.ge) least]

theorem Worth.add (first : Worth x r) (second : Worth y s) : Worth (x + y) (fit (r + s)) := by
  have least := first.le_fit (Nat.le_add_right r s)
  have least' := second.le_fit (Nat.le_add_left s r)
  have most := fit_le_limit (r + s)
  unfold Worth
  rw [unpack_add]
  rcases Nat.eq_zero_or_pos (fit (r + s)) with none | pos
  · -- Both numbers are zero.
    obtain rfl : r = 0 := by omega
    obtain rfl : s = 0 := by omega
    rw [first.unique worth_zero, second.unique worth_zero, none]
    rfl
  · cases finite : y.toModel.unpack.isFinite with
    | true =>
      refine worth_of_rank pos ?_
      rw [rank_store_plus (stored x) (stored y) finite (rank_of_worth first) (rank_of_worth second),
        first.plus_eq]
    | false =>
      rcases second.cases with ⟨_, b⟩ | ⟨all, b⟩ | ⟨_, _, m, e, hm, b, _⟩
      · rw [b] at finite
        cases finite
      · have sum : UnpackedFloat.add .binary64 x.toModel.unpack y.toModel.unpack =
            .infinity .positive := by
          rw [b]
          rcases first.cases with ⟨_, a⟩ | ⟨_, a⟩ | ⟨_, _, m, e, hm, a, _⟩ <;> rw [a] <;> rfl
        rw [sum, store_infinity, Nat.le_antisymm most (all.ge.trans least')]
        rfl
      · rw [b] at finite
        cases finite

theorem unpack_sub (x y : Float) : (x - y).toModel.unpack =
    store (UnpackedFloat.sub .binary64 x.toModel.unpack y.toModel.unpack) := rfl

theorem fit_pos {n : ℕ} (pos : 0 < n) : 0 < fit n :=
  le_fit ⟨1, 0, by omega, rfl⟩ limit_pos pos

theorem Worth.sub (first : Worth x r) (second : Worth y s) (finite : r < limit) (less : s < r) :
    Worth (x - y) (fit (r - s)) := by
  obtain ⟨m, e, hm, a, c, v⟩ := first.finite (by omega) finite
  have storedX := stored x
  have storedY := stored y
  unfold Worth
  rw [unpack_sub, a]
  rw [a] at storedX
  rcases second.cases with ⟨none, b⟩ | ⟨all, _⟩ | ⟨_, _, n, f, hn, b, c', v'⟩
  · rw [b, none, Nat.sub_zero, fit_of_short first.short finite.le, v]
    exact congrArg worth (store_stored storedX rfl)
  · omega
  · rw [b] at storedY ⊢
    have sum : UnpackedFloat.sub .binary64 (.finite .positive m e hm) (.finite .positive n f hn) =
        UnpackedFloat.add .binary64 (.finite .positive m e hm) (.finite .negative n f hn) := rfl
    have ranked := rank_store_add (a := .finite .positive m e hm) (b := .finite .negative n f hn)
      storedX storedY rfl rfl rfl rfl
    have difference : Sign.positive.apply (magnitude m e) + Sign.negative.apply (magnitude n f) =
        ((r - s : ℕ) : ℤ) := by
      rw [Nat.cast_sub less.le, ← v, ← v']
      rfl
    rw [sum]
    refine worth_of_rank (fit_pos (by omega)) ?_
    rw [ranked, difference, fitted_natCast]

/-! ### Products and quotients -/

theorem unpack_mul (x y : Float) : (x * y).toModel.unpack =
    store (UnpackedFloat.mul .binary64 x.toModel.unpack y.toModel.unpack) := rfl

theorem unpack_div (x y : Float) : (x / y).toModel.unpack =
    store (UnpackedFloat.div .binary64 x.toModel.unpack y.toModel.unpack) := rfl

theorem Worth.mul (first : Worth x r) (second : Worth y s) (pos : 0 < r) (pos' : 0 < s)
    (finite : r < limit) (finite' : s < limit) :
    ∃ t, Rounds (r * s) unity t ∧ Worth (x * y) (min t limit) := by
  obtain ⟨m, e, hm, a, c, v⟩ := first.finite pos finite
  obtain ⟨n, f, hn, b, c', v'⟩ := second.finite pos' finite'
  unfold Worth
  rw [unpack_mul, a, b, v, v']
  exact worth_store_mul c c'

theorem Worth.div (first : Worth x r) (second : Worth y s) (pos : 0 < r) (pos' : 0 < s)
    (finite : r < limit) (finite' : s < limit) :
    ∃ t, Rounds (r * unity) s t ∧ Worth (x / y) (min t limit) := by
  obtain ⟨m, e, hm, a, c, v⟩ := first.finite pos finite
  obtain ⟨n, f, hn, b, c', v'⟩ := second.finite pos' finite'
  unfold Worth
  rw [unpack_div, a, b, v, v']
  exact worth_store_div c c'

theorem Worth.zero_div (divisor : Worth y s) (pos : 0 < s) (finite : s < limit) :
    Worth (0.0 / y) 0 := by
  obtain ⟨n, f, hn, b, _⟩ := divisor.finite pos finite
  unfold Worth
  rw [unpack_div, unpack_zero, b]
  exact congrArg worth (store_zero .positive)

theorem Worth.limit_div (first : Worth x limit) (divisor : Worth y s) (pos : 0 < s)
    (finite : s < limit) : Worth (x / y) limit := by
  obtain ⟨n, f, hn, b, _⟩ := divisor.finite pos finite
  rcases first.cases with ⟨none, _⟩ | ⟨_, a⟩ | ⟨_, below, _⟩
  · exact absurd none limit_pos.ne'
  · unfold Worth
    rw [unpack_div, a, b]
    exact congrArg worth (store_infinity .positive)
  · exact absurd below (lt_irrefl limit)

/-! ### Whole numbers -/

theorem limit_gt : 2 ^ 53 * unity < limit := by decide +kernel

theorem count_lt_limit {k : ℕ} (small : k < 2 ^ 53) : k * unity < limit :=
  (Nat.mul_lt_mul_of_pos_right small unity_pos).trans limit_gt

theorem one_lt_limit : unity < limit := by
  have below := @count_lt_limit 1 (by omega)
  rwa [Nat.one_mul] at below

theorem worth_toFloat {k : ℕ} (pos : 0 < k) (small : k < 2 ^ 53) :
    Worth k.toUInt64.toFloat (k * unity) := by
  have short : Short (k * unity) := ⟨k, 1074, small, rfl⟩
  have same : k.toUInt64.toNat = k := by
    rw [Nat.toUInt64_eq, UInt64.toNat_ofNat']
    omega
  have integer : k.toUInt64.toFloat.toModel.unpack =
      store (UnpackedFloat.normalize .binary64 (k.toUInt64.toNat : ℕ) 0 .positive) := rfl
  have ranked := rank_store_normalize (k.toUInt64.toNat : ℕ) (e := 0) (by omega) .positive
  rw [same] at integer ranked
  have scaled : ((k : ℕ) : ℤ) * 2 ^ (0 + 1074 : ℤ).toNat = (k * unity : ℕ) := by
    rw [Nat.cast_mul, unity, Nat.cast_pow]
    rfl
  rw [scaled, fitted_natCast, fit_of_short short (count_lt_limit small).le] at ranked
  unfold Worth
  rw [integer]
  exact worth_of_rank (Nat.mul_pos pos unity_pos) ranked

theorem worth_one : Worth 1.0 unity := by
  have one : (1.0 : Float).toModel.unpack = .finite .positive (2 ^ 52) (-52) (by omega) := by rfl
  have digits : magnitude (2 ^ 52) (-52) = unity := by decide +kernel
  unfold Worth
  rw [one, worth, digits]

theorem short_unity : Short unity := worth_one.short

theorem Worth.mul_one (value : Worth x r) (pos : 0 < r) (finite : r < limit) :
    Worth (x * 1.0) r := by
  obtain ⟨t, rounds, product⟩ := value.mul worth_one pos unity_pos finite one_lt_limit
  rwa [rounds.exact value.short rfl, min_eq_left finite.le] at product

theorem count_zero : (count 0 : Float) = 0.0 := by decide

theorem worth_count {k : ℕ} (small : k < 2 ^ 53) : Worth (count k) (k * unity) := by
  rcases Nat.eq_zero_or_pos k with rfl | pos
  · rw [Nat.zero_mul, count_zero]
    exact worth_zero
  · have read : (count k : Float) = k.toUInt64.toFloat * 1.0 := by
      show Float.ofScientific k false 0 = _
      unfold Float.ofScientific
      rw [dif_pos ⟨small, by omega⟩]
      rfl
    rw [read]
    exact (worth_toFloat pos small).mul_one (Nat.mul_pos pos unity_pos) (count_lt_limit small)

end SoundLaw.Floating
