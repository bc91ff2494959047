import SoundLaw.Proofs.Number.Sums

/-!
Products and quotients of floating-point numbers. They are the exact fractions with their surplus
digits rounded off, so they lie on the same side of every number of at most 53 digits.
-/
namespace SoundLaw.Floating
open Float.Model UnpackedFloat

/-! ### Fractions rounded to the format -/

theorem cut_fraction (num : ℕ) {den : ℕ} (pos : 0 < den) :
    Cut num den
      (.ofMantissaAndAccuracy (num / den) (accuracyOfFraction (num % den) den)) := by
  have rest : num % den < den := Nat.mod_lt num pos
  unfold accuracyOfFraction
  split
  · refine ⟨rfl, ?_, ?_⟩ <;> simp only [ExtendedMantissa.ofMantissaAndAccuracy] <;> grind
  · rcases compared : compare (2 * (num % den)) den with _ | _ | _ <;>
      simp only [Nat.compare_eq_lt, Nat.compare_eq_eq, Nat.compare_eq_gt] at compared <;>
        refine ⟨rfl, ?_, ?_⟩ <;> simp only [ExtendedMantissa.ofMantissaAndAccuracy] <;> grind

def Short (n : ℕ) : Prop := ∃ m k, m < 2 ^ 53 ∧ n = m * 2 ^ k

/-- The fraction in as many digits as a number has, the surplus ones rounded off. -/
structure Rounds (num den rounded : ℕ) : Prop where
  pos : 0 < den
  digits : ∃ t, rounded = roundedQuotient num (den * 2 ^ t) * 2 ^ t ∧
    num ≤ 2 ^ 53 * (den * 2 ^ t) ∧ (t = 0 ∨ 2 ^ 52 * (den * 2 ^ t) ≤ num)

variable {num den q r s : ℕ}

theorem finer_lt {m k t : ℕ} (short : m < 2 ^ 53) (finer : k < t) :
    m * 2 ^ k < 2 ^ 52 * 2 ^ t := by
  calc
    m * 2 ^ k < 2 ^ 53 * 2 ^ k := Nat.mul_lt_mul_of_pos_right short (Nat.two_pow_pos k)
    _ = 2 ^ 52 * 2 ^ (k + 1) := by ring
    _ ≤ 2 ^ 52 * 2 ^ t := Nat.mul_le_mul_left _ (Nat.pow_le_pow_right (by omega) finer)

theorem Rounds.below (rounds : Rounds num den r) (short : Short q) (le : num ≤ q * den) :
    r ≤ q := by
  obtain ⟨pos, t, rfl, _, full⟩ := rounds
  obtain ⟨m, k, digits, rfl⟩ := short
  rcases Nat.lt_or_ge k t with finer | coarser
  · have above : 2 ^ 52 * 2 ^ t * den ≤ m * 2 ^ k * den := by
      calc
        2 ^ 52 * 2 ^ t * den = 2 ^ 52 * (den * 2 ^ t) := by ring
        _ ≤ num := full.resolve_left (by omega)
        _ ≤ m * 2 ^ k * den := le
    exact absurd (Nat.le_of_mul_le_mul_right above pos) (finer_lt digits finer).not_ge
  · obtain ⟨j, rfl⟩ := Nat.exists_eq_add_of_le coarser
    have multiple : m * 2 ^ (t + j) = m * 2 ^ j * 2 ^ t := by ring
    rw [multiple] at le ⊢
    refine Nat.mul_le_mul_right _ (roundedQuotient_le (Nat.mul_pos pos (Nat.two_pow_pos t)) ?_)
    rwa [Nat.mul_comm den, ← Nat.mul_assoc]

theorem Rounds.above (rounds : Rounds num den r) (short : Short q) (le : q * den ≤ num) :
    q ≤ r := by
  obtain ⟨pos, t, rfl, _, full⟩ := rounds
  obtain ⟨m, k, digits, rfl⟩ := short
  have pos' : 0 < den * 2 ^ t := Nat.mul_pos pos (Nat.two_pow_pos t)
  rcases Nat.lt_or_ge k t with finer | coarser
  · exact (finer_lt digits finer).le.trans
      (Nat.mul_le_mul_right _ (le_roundedQuotient pos' (full.resolve_left (by omega))))
  · obtain ⟨j, rfl⟩ := Nat.exists_eq_add_of_le coarser
    have multiple : m * 2 ^ (t + j) = m * 2 ^ j * 2 ^ t := by ring
    rw [multiple] at le ⊢
    refine Nat.mul_le_mul_right _ (le_roundedQuotient pos' ?_)
    rwa [Nat.mul_comm den, ← Nat.mul_assoc]

theorem Rounds.exact (rounds : Rounds num den r) (short : Short q) (same : num = q * den) :
    r = q :=
  Nat.le_antisymm (rounds.below short same.le) (rounds.above short same.ge)

theorem rounds_scale {c : ℕ} (pos : 0 < c) :
    Rounds (num * c) (den * c) r ↔ Rounds num den r := by
  have scaled (t : ℕ) : den * c * 2 ^ t = den * 2 ^ t * c := by ring
  have bound (d t : ℕ) : 2 ^ d * (den * 2 ^ t * c) = 2 ^ d * (den * 2 ^ t) * c := by ring
  constructor
  · rintro ⟨pos', t, digits⟩
    rw [scaled, roundedQuotient_scale _ _ pos, bound, bound, Nat.mul_le_mul_right_iff pos,
      Nat.mul_le_mul_right_iff pos] at digits
    exact ⟨Nat.pos_of_mul_pos_right pos', t, digits⟩
  · rintro ⟨pos', t, digits⟩
    refine ⟨Nat.mul_pos pos' pos, t, ?_⟩
    rwa [scaled, roundedQuotient_scale _ _ pos, bound, bound, Nat.mul_le_mul_right_iff pos,
      Nat.mul_le_mul_right_iff pos]

theorem rounds_zero (pos : 0 < den) : Rounds 0 den 0 :=
  ⟨pos, 0, by rw [roundedQuotient, Nat.zero_div, Nat.zero_mod]; simp [pos], Nat.zero_le _, Or.inl rfl⟩

/-- Rounding to a multiple of a power of two, as long as 53 digits are left or the power is one. -/
theorem rounds_multiple {a b t : ℕ} (pos : 0 < b) (pos' : 0 < den)
    (same : a * 2 ^ t * den = num * b) (most : a ≤ 2 ^ 53 * b) (full : t = 0 ∨ 2 ^ 52 * b ≤ a) :
    Rounds num den (roundedQuotient a b * 2 ^ t) := by
  have size : 0 < den * 2 ^ t := Nat.mul_pos pos' (Nat.two_pow_pos t)
  have top : num * b = a * (den * 2 ^ t) := by rw [← same]; ring
  have bottom : den * b * 2 ^ t = b * (den * 2 ^ t) := by ring
  refine (rounds_scale pos).mp ⟨Nat.mul_pos pos' pos, t, ?_⟩
  rw [top, bottom, roundedQuotient_scale a b size, ← Nat.mul_assoc (2 ^ 53),
    ← Nat.mul_assoc (2 ^ 52), Nat.mul_le_mul_right_iff size, Nat.mul_le_mul_right_iff size]
  exact ⟨rfl, most, full⟩

theorem short_power (k : ℕ) : Short (2 ^ k) := ⟨1, k, by omega, (Nat.one_mul _).symm⟩

theorem power_of_digits {t t' : ℕ} (finer : t < t') (most : num ≤ 2 ^ 53 * (den * 2 ^ t))
    (full : t' = 0 ∨ 2 ^ 52 * (den * 2 ^ t') ≤ num) : num = 2 ^ (53 + t) * den := by
  refine Nat.le_antisymm ?_ ?_
  · calc
      num ≤ 2 ^ 53 * (den * 2 ^ t) := most
      _ = 2 ^ (53 + t) * den := by ring
  · calc
      2 ^ (53 + t) * den = 2 ^ 52 * (den * 2 ^ (t + 1)) := by ring
      _ ≤ 2 ^ 52 * (den * 2 ^ t') :=
        Nat.mul_le_mul_left _ (Nat.mul_le_mul_left den (Nat.pow_le_pow_right (by omega) finer))
      _ ≤ num := full.resolve_left (by omega)

theorem Rounds.unique {num' den' : ℕ} (first : Rounds num den r) (second : Rounds num' den' s)
    (same : num * den' = num' * den) : r = s := by
  have one := (rounds_scale second.pos).mpr first
  have two := (rounds_scale first.pos).mpr second
  rw [← same, Nat.mul_comm den'] at two
  obtain ⟨t, digits, most, full⟩ := one.digits
  obtain ⟨t', digits', most', full'⟩ := two.digits
  rcases Nat.lt_trichotomy t t' with finer | equal | coarser
  · have power := power_of_digits finer most full'
    exact (one.exact (short_power _) power).trans (two.exact (short_power _) power).symm
  · rw [digits, digits', equal]
  · have power := power_of_digits coarser most' full
    exact (one.exact (short_power _) power).trans (two.exact (short_power _) power).symm

/-! ### Numbers not below zero -/

def worth : UnpackedFloat → Option ℕ
  | .zero .positive => some 0
  | .finite .positive m e _ => some (magnitude m e)
  | .infinity .positive => some limit
  | _ => none

theorem rank_of_worth {x : UnpackedFloat} {r : ℕ} (value : worth x = some r) :
    rank x = some (r : ℤ) := by
  rcases x with (_ | _) | _ | (_ | _) | ⟨_ | _, m, e, pos⟩ <;>
    simp only [worth, reduceCtorEq] at value <;>
      rw [← Option.some.inj value] <;> simp only [rank, Sign.apply, Nat.cast_zero]

theorem worth_of_rank {x : UnpackedFloat} {r : ℕ} (pos : 0 < r) (ranked : rank x = some (r : ℤ)) :
    worth x = some r := by
  have positive {s : Sign} {n : ℕ} (same : s.apply n = (r : ℤ)) : s = .positive ∧ n = r := by
    cases s with
    | positive => exact ⟨rfl, Int.natCast_inj.mp same⟩
    | negative =>
      have negated : -(n : ℤ) = r := same
      omega
  cases x with
  | notANumber => cases ranked
  | zero s =>
    have same : (0 : ℤ) = r := Option.some.inj ranked
    omega
  | infinity s =>
    obtain ⟨rfl, same⟩ := positive (Option.some.inj ranked)
    exact congrArg some same
  | finite s m e hm =>
    obtain ⟨rfl, same⟩ := positive (Option.some.inj ranked)
    exact congrArg some same

theorem Cut.mantissa_eq {m num den : ℕ} {acc : Accuracy}
    (cut : Cut num den (.ofMantissaAndAccuracy m acc)) : m = num / den := by
  rw [← cut.quotient]
  rcases acc with _ | _ | _ | _ <;> rfl

/-- At the target exponent a fraction has at most 53 digits, and as many unless that is the least
exponent. -/
theorem target_digits {m num den : ℕ} {e : ℤ} (pos : 0 < den) (whole : m = num / den)
    (low : e ≤ target m e) :
    num ≤ 2 ^ 53 * (den * 2 ^ (target m e - e).toNat) ∧
      ((target m e + 1074).toNat = 0 ∨ 2 ^ 52 * (den * 2 ^ (target m e - e).toNat) ≤ num) := by
  have chosen := target_def m e
  set d := (target m e - e).toNat with hd
  have rest : num % den < den := Nat.mod_lt num pos
  have split : den * m + num % den = num := by rw [whole]; exact Nat.div_add_mod num den
  constructor
  · have digits : m + 1 ≤ 2 ^ (53 + d) :=
      (Nat.lt_log2_self (n := m)).trans_le (Nat.pow_le_pow_right (by omega) (by omega))
    calc
      num ≤ den * (m + 1) := by rw [Nat.mul_succ]; omega
      _ ≤ den * 2 ^ (53 + d) := Nat.mul_le_mul_left den digits
      _ = 2 ^ 53 * (den * 2 ^ d) := by ring
  · rcases Nat.eq_zero_or_pos (target m e + 1074).toNat with least | greater
    · exact Or.inl least
    · have nonzero : m ≠ 0 := by
        rintro rfl
        rw [Nat.log2_zero] at chosen
        omega
      have digits : 2 ^ (52 + d) ≤ m :=
        (Nat.pow_le_pow_right (by omega) (by omega)).trans (Nat.log2_self_le nonzero)
      refine Or.inr ?_
      calc
        2 ^ 52 * (den * 2 ^ d) = den * 2 ^ (52 + d) := by ring
        _ ≤ den * m := Nat.mul_le_mul_left den digits
        _ ≤ num := by omega

theorem worth_store_rounded {n : ℕ} {x : UnpackedFloat} (rounded : Rounded .positive n x) :
    worth (store x) = some (min n limit) := by
  have pos : 0 < n := by
    obtain ⟨m, e, hm, -, -, rfl⟩ := rounded
    exact magnitude_pos hm e
  have pos' : 0 < limit := magnitude_pos (by omega) _
  exact worth_of_rank (by omega) (rank_store_rounded rounded)

theorem worth_store_round {m num den : ℕ} {e : ℤ} {acc : Accuracy} (pos : 0 < den)
    (cut : Cut num den (.ofMantissaAndAccuracy m acc)) (low : e ≤ target m e) :
    worth (store (roundWithAccuracy .binary64 .positive m e acc)) =
      some (min (roundedQuotient num (den * 2 ^ (target m e - e).toNat) *
        2 ^ (target m e + 1074).toNat) limit) := by
  have scaled : 0 < den * 2 ^ (target m e - e).toNat := Nat.mul_pos pos (Nat.two_pow_pos _)
  have digits : (shiftToTargetExponent .binary64 m e acc).1.roundedMantissa =
      roundedQuotient num (den * 2 ^ (target m e - e).toNat) := (cut.shift pos _).rounded scaled
  have exponent : (shiftToTargetExponent .binary64 m e acc).2 = target m e := by
    show e + ((target m e - e).toNat : ℤ) = _
    omega
  obtain ⟨most, full⟩ := target_digits pos cut.mantissa_eq low
  have most' := roundedQuotient_le scaled most
  have full' := full.imp_right (le_roundedQuotient scaled)
  have least : -1074 ≤ target m e := by rw [target_def]; omega
  set q := roundedQuotient num (den * 2 ^ (target m e - e).toNat)
  unfold roundWithAccuracy
  dsimp only
  rw [digits, exponent]
  rcases Nat.eq_zero_or_pos q with none | some
  · have last : (shiftToTargetExponent .binary64 q (target m e) .exact).1.mantissa = 0 :=
      (shifted q _).quotient.trans (by rw [none, Nat.zero_div])
    rw [dif_pos last, none, Nat.zero_mul, Nat.zero_min, store_zero]
    rfl
  · obtain ⟨nonzero, canonical, same⟩ := carry most' least (by omega) some
    exact worth_store_rounded ⟨_, _, nonzero, dif_neg nonzero.ne', canonical, same⟩

/-! ### Products and quotients -/

def unity : ℕ := 2 ^ 1074

theorem unity_pos : 0 < unity := pow_pos (by omega) _

theorem rounds_target {m num den a b : ℕ} {e : ℤ} (pos : 0 < den) (pos' : 0 < b)
    (whole : m = num / den) (low : e ≤ target m e)
    (same : num * 2 ^ (target m e + 1074).toNat * b = a * (den * 2 ^ (target m e - e).toNat)) :
    Rounds a b (roundedQuotient num (den * 2 ^ (target m e - e).toNat) *
      2 ^ (target m e + 1074).toNat) :=
  have ⟨most, full⟩ := target_digits pos whole low
  rounds_multiple (Nat.mul_pos pos (Nat.two_pow_pos _)) pos' same most full

theorem Canonical.le_log2 {m : ℕ} {e : ℤ} (canonical : Canonical m e) (greater : e ≠ -1074) :
    52 ≤ m.log2 := by
  have full : 2 ^ 52 ≤ m := canonical.full.resolve_right greater
  exact (Nat.le_log2 (by omega)).mpr full

theorem product_low {m n : ℕ} {e f : ℤ} (hm : 0 < m) (hn : 0 < n) (first : Canonical m e)
    (second : Canonical n f) : e + f ≤ target (m * n) (e + f) := by
  have least := first.least
  have least' := second.least
  have digits : m.log2 ≤ (m * n).log2 :=
    (Nat.le_log2 (Nat.mul_pos hm hn).ne').mpr
      ((Nat.log2_self_le hm.ne').trans (Nat.le_mul_of_pos_right m hn))
  have digits' : n.log2 ≤ (m * n).log2 :=
    (Nat.le_log2 (Nat.mul_pos hm hn).ne').mpr
      ((Nat.log2_self_le hn.ne').trans (Nat.le_mul_of_pos_left n hm))
  rw [target_def]
  rcases eq_or_ne e (-1074) with lowest | greater
  · rcases eq_or_ne f (-1074) with lowest' | greater'
    · omega
    · have := second.le_log2 greater'
      omega
  · have := first.le_log2 greater
    omega

theorem worth_store_mul {m n : ℕ} {e f : ℤ} {hm : 0 < m} {hn : 0 < n} (first : Canonical m e)
    (second : Canonical n f) :
    ∃ r, Rounds (magnitude m e * magnitude n f) unity r ∧
      worth (store (UnpackedFloat.mul .binary64 (.finite .positive m e hm)
        (.finite .positive n f hn))) = some (min r limit) := by
  have low := product_low hm hn first second
  have least := first.least
  have least' := second.least
  have floor : -1074 ≤ target (m * n) (e + f) := by rw [target_def]; omega
  refine ⟨_, rounds_target Nat.one_pos unity_pos (Nat.div_one _).symm low ?_,
    worth_store_round Nat.one_pos (cut_exact _) low⟩
  set t := target (m * n) (e + f)
  have exponents : (t + 1074).toNat + 1074 =
      (e + 1074).toNat + (f + 1074).toNat + (t - (e + f)).toNat := by omega
  calc
    m * n * 2 ^ (t + 1074).toNat * unity = m * n * 2 ^ ((t + 1074).toNat + 1074) := by
      rw [pow_add, mul_assoc, unity]
    _ = magnitude m e * magnitude n f * (1 * 2 ^ (t - (e + f)).toNat) := by
      rw [exponents, pow_add, pow_add, magnitude, magnitude]; ring

def quotientExponent (m : ℕ) (e : ℤ) (n : ℕ) (f : ℤ) : ℤ :=
  min (e - f) (max (m.log2 + e - n.log2 - f - 53) (-1074))

theorem divCore_eq (m : ℕ) (e : ℤ) (n : ℕ) (f : ℤ) :
    let num := m * 2 ^ (e - f - quotientExponent m e n f).toNat
    divCore .binary64 m e n f =
      (num / n, quotientExponent m e n f, accuracyOfFraction (num % n) n) := by
  have bits : (Format.binary64.mantissaBits : ℤ) = 53 := rfl
  have floor : Format.binary64.minExponent = -1074 := rfl
  have chosen : min (e - f) (Format.binary64.targetExponent (totalExponent m e - totalExponent n f)) =
      quotientExponent m e n f := by
    rw [quotientExponent, Format.targetExponent, totalExponent, totalExponent, bits, floor]
    congr 2
    ring
  unfold divCore
  dsimp only
  rw [chosen, Nat.shiftLeft_eq]

theorem quotient_low {m n : ℕ} {e f : ℤ} (hm : 0 < m) (hn : 0 < n) :
    quotientExponent m e n f ≤
      target (m * 2 ^ (e - f - quotientExponent m e n f).toNat / n) (quotientExponent m e n f) := by
  have chosen : quotientExponent m e n f =
      min (e - f) (max (m.log2 + e - n.log2 - f - 53) (-1074)) := rfl
  set t := quotientExponent m e n f
  rw [target_def]
  rcases le_or_gt t (-1074) with least | greater
  · omega
  · -- The quotient is shifted until it has 53 digits.
    have shifts : 53 + n.log2 ≤ m.log2 + (e - f - t).toNat := by omega
    have digits : 2 ^ 52 ≤ m * 2 ^ (e - f - t).toNat / n := by
      refine (Nat.le_div_iff_mul_le hn).mpr ?_
      calc
        2 ^ 52 * n ≤ 2 ^ 52 * 2 ^ (n.log2 + 1) := Nat.mul_le_mul_left _ Nat.lt_log2_self.le
        _ = 2 ^ (53 + n.log2) := by ring
        _ ≤ 2 ^ (m.log2 + (e - f - t).toNat) := Nat.pow_le_pow_right (by omega) shifts
        _ = 2 ^ m.log2 * 2 ^ (e - f - t).toNat := pow_add ..
        _ ≤ m * 2 ^ (e - f - t).toNat := Nat.mul_le_mul_right _ (Nat.log2_self_le hm.ne')
    have full := (Nat.le_log2 (Nat.pos_of_ne_zero (by omega)).ne').mpr digits
    omega

theorem worth_store_div {m n : ℕ} {e f : ℤ} {hm : 0 < m} {hn : 0 < n} (first : Canonical m e)
    (second : Canonical n f) :
    ∃ r, Rounds (magnitude m e * unity) (magnitude n f) r ∧
      worth (store (UnpackedFloat.div .binary64 (.finite .positive m e hm)
        (.finite .positive n f hn))) = some (min r limit) := by
  have low := quotient_low (e := e) (f := f) hm hn
  have least := first.least
  have least' := second.least
  have cut := cut_fraction (m * 2 ^ (e - f - quotientExponent m e n f).toNat) hn
  have divided : UnpackedFloat.div .binary64 (.finite .positive m e hm) (.finite .positive n f hn) =
      roundWithAccuracy .binary64 .positive
        (m * 2 ^ (e - f - quotientExponent m e n f).toNat / n) (quotientExponent m e n f)
        (accuracyOfFraction (m * 2 ^ (e - f - quotientExponent m e n f).toNat % n) n) := by
    unfold UnpackedFloat.div
    dsimp only
    rw [divCore_eq]
    rfl
  rw [divided]
  refine ⟨_, rounds_target hn (magnitude_pos hn f) rfl low ?_, worth_store_round hn cut low⟩
  have small : quotientExponent m e n f ≤ e - f := min_le_left _ _
  have floor (k : ℕ) : -1074 ≤ target k (quotientExponent m e n f) := by rw [target_def]; omega
  set t := quotientExponent m e n f
  set u := target (m * 2 ^ (e - f - t).toNat / n) t
  have floor : -1074 ≤ u := floor _
  have exponents : (e - f - t).toNat + (u + 1074).toNat + (f + 1074).toNat =
      (e + 1074).toNat + 1074 + (u - t).toNat := by omega
  calc
    m * 2 ^ (e - f - t).toNat * 2 ^ (u + 1074).toNat * magnitude n f =
        m * n * 2 ^ ((e - f - t).toNat + (u + 1074).toNat + (f + 1074).toNat) := by
      rw [pow_add, pow_add, magnitude]; ring
    _ = magnitude m e * unity * (n * 2 ^ (u - t).toNat) := by
      rw [exponents, pow_add, pow_add, ← unity, magnitude]; ring

end SoundLaw.Floating
