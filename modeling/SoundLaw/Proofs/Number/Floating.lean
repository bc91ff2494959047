import SoundLaw.Proofs.Number.Rounding

/-!
Floating-point numbers as multiples of the least positive one. A sum is the exact sum with its
surplus digits rounded off, or an infinity where that is too great.
-/
namespace SoundLaw.Floating
open Float.Model UnpackedFloat

/-! ### Fractions with their rest -/

/-- The bits after the digits tell the rest of a fraction apart as far as rounding needs it. -/
structure Cut (num den : ℕ) (em : ExtendedMantissa) : Prop where
  quotient : em.mantissa = num / den
  half : em.roundBit = true ↔ den ≤ 2 * (num % den)
  between : em.stickyBit = true ↔ 2 * (num % den) ≠ 0 ∧ 2 * (num % den) ≠ den

theorem Cut.succ {num den : ℕ} {em : ExtendedMantissa} (cut : Cut num den em) (pos : 0 < den) :
    Cut num (den * 2) em.shiftRightOne := by
  obtain ⟨quotient, half, between⟩ := cut
  have rest : num % den < den := Nat.mod_lt num pos
  have digits : num % (den * 2) = num % den + den * (num / den % 2) := Nat.mod_mul
  refine ⟨?_, ?_, ?_⟩
  · show em.mantissa / 2 = _
    rw [quotient, Nat.div_div_eq_div_mul]
  · show (em.mantissa % 2 != 0) = true ↔ _
    rw [quotient, digits, bne_iff_ne]
    rcases Nat.mod_two_eq_zero_or_one (num / den) with even | odd
    · rw [even]; omega
    · rw [odd]; omega
  · show (em.roundBit || em.stickyBit) = true ↔ _
    rw [Bool.or_eq_true, half, between, digits]
    rcases Nat.mod_two_eq_zero_or_one (num / den) with even | odd
    · rw [even]; omega
    · rw [odd]; omega

theorem Cut.shift {num den : ℕ} {em : ExtendedMantissa} (cut : Cut num den em) (pos : 0 < den)
    (d : ℕ) : Cut num (den * 2 ^ d) (em >>> d) := by
  induction d with
  | zero => rwa [pow_zero, mul_one]
  | succ d ih =>
    rw [pow_succ, ← mul_assoc]
    exact ih.succ (Nat.mul_pos pos (Nat.two_pow_pos d))

theorem Cut.rounded {num den : ℕ} {em : ExtendedMantissa} (cut : Cut num den em) (pos : 0 < den) :
    em.roundedMantissa = roundedQuotient num den := by
  obtain ⟨mantissa, roundBit, stickyBit⟩ := em
  obtain ⟨quotient, half, between⟩ := cut
  dsimp only at quotient half between
  unfold roundedQuotient
  dsimp only
  rw [← quotient]
  cases roundBit <;> cases stickyBit <;>
    simp only [Bool.false_eq_true, false_iff, true_iff, not_le, not_and, not_not]
      at half between <;>
      simp only [ExtendedMantissa.roundedMantissa, ExtendedMantissa.accuracy,
        Accuracy.roundToNearestEven]
  · rw [if_pos half]
  · rw [if_pos half]
  · have tie : 2 * (num % den) = den := by omega
    rw [tie, if_neg (lt_irrefl _), if_neg (lt_irrefl _)]
    simp only [beq_iff_eq]
    split <;> omega
  · rw [if_neg (by omega), if_pos (by omega)]

theorem cut_exact (m : ℕ) : Cut m 1 (.ofMantissaAndAccuracy m .exact) where
  quotient := by simp [ExtendedMantissa.ofMantissaAndAccuracy]
  half := by simp [ExtendedMantissa.ofMantissaAndAccuracy, Nat.mod_one]
  between := by simp [ExtendedMantissa.ofMantissaAndAccuracy, Nat.mod_one]

/-! ### Digits that are shifted out -/

structure Shifted (m d : ℕ) (em : ExtendedMantissa) : Prop where
  quotient : em.mantissa = m / 2 ^ d
  half : em.roundBit = true ↔ 2 ^ d ≤ 2 * (m % 2 ^ d)
  between : em.stickyBit = true ↔ 2 * (m % 2 ^ d) ≠ 0 ∧ 2 * (m % 2 ^ d) ≠ 2 ^ d

theorem shifted (m d : ℕ) :
    Shifted m d (ExtendedMantissa.ofMantissaAndAccuracy m .exact >>> d) := by
  have cut := (cut_exact m).shift Nat.one_pos d
  rw [one_mul] at cut
  exact ⟨cut.quotient, cut.half, cut.between⟩

theorem Shifted.rounded {m d : ℕ} {em : ExtendedMantissa} (shifted : Shifted m d em) :
    em.roundedMantissa = roundedQuotient m (2 ^ d) :=
  Cut.rounded ⟨shifted.quotient, shifted.half, shifted.between⟩ (Nat.two_pow_pos d)

/-! ### Rounding to the format -/

def magnitude (m : ℕ) (e : ℤ) : ℕ := m * 2 ^ (e + 1074).toNat

theorem magnitude_pos {m : ℕ} (pos : 0 < m) (e : ℤ) : 0 < magnitude m e :=
  Nat.mul_pos pos (Nat.two_pow_pos _)

theorem magnitude_shiftLeft (m k : ℕ) {e : ℤ} (least : -1074 ≤ e) :
    magnitude (m <<< k) e = magnitude m (e + k) := by
  have exponents : (e + k + 1074).toNat = k + (e + 1074).toNat := by omega
  rw [magnitude, magnitude, exponents, Nat.shiftLeft_eq, mul_assoc, ← pow_add]

/-- The digits fill the format, unless the exponent is the least one. -/
structure Canonical (m : ℕ) (e : ℤ) : Prop where
  short : m < 2 ^ 53
  least : -1074 ≤ e
  full : 2 ^ 52 ≤ m ∨ e = -1074

def target (m : ℕ) (e : ℤ) : ℤ := Format.binary64.targetExponent (totalExponent m e)

theorem target_def (m : ℕ) (e : ℤ) : target m e = max (m.log2 + e - 52) (-1074) := by
  have bits : (Format.binary64.mantissaBits : ℤ) = 53 := rfl
  have floor : Format.binary64.minExponent = -1074 := rfl
  rw [target, Format.targetExponent, totalExponent, bits, floor]
  omega

theorem log2_mul_pow {m : ℕ} (pos : 0 < m) (k : ℕ) : (m * 2 ^ k).log2 = m.log2 + k := by
  have nonzero : m * 2 ^ k ≠ 0 := Nat.mul_ne_zero pos.ne' (Nat.two_pow_pos k).ne'
  refine (Nat.log2_eq_iff nonzero).mpr ⟨?_, ?_⟩
  · rw [pow_add]
    exact Nat.mul_le_mul_right _ (Nat.log2_self_le pos.ne')
  · rw [Nat.add_right_comm, pow_add]
    exact Nat.mul_lt_mul_of_pos_right Nat.lt_log2_self (Nat.two_pow_pos k)

theorem target_eq {m : ℕ} {e : ℤ} (pos : 0 < m) (least : -1074 ≤ e) :
    target m e = surplus (magnitude m e) - 1074 := by
  have digits := log2_mul_pow pos (e + 1074).toNat
  rw [target_def, surplus, magnitude, digits]
  omega

theorem digits_bounds (n : ℕ) :
    roundedQuotient n (2 ^ surplus n) ≤ 2 ^ 53 ∧
      (2 ^ 52 ≤ roundedQuotient n (2 ^ surplus n) ∨
        surplus n = 0 ∧ roundedQuotient n (2 ^ surplus n) = n) := by
  refine ⟨roundedQuotient_le (Nat.two_pow_pos _) (lt_surplus n).le, ?_⟩
  rcases Nat.eq_zero_or_pos (surplus n) with none | some
  · refine Or.inr ⟨none, ?_⟩
    rw [none]
    simpa using roundedQuotient_mul n Nat.one_pos
  · exact Or.inl (le_roundedQuotient (Nat.two_pow_pos _) (surplus_le some))

def Rounded (s : Sign) (n : ℕ) (x : UnpackedFloat) : Prop :=
  ∃ m e pos, x = .finite s m e pos ∧ Canonical m e ∧ magnitude m e = n

/-- Rounding may carry into one digit more, which is shifted out again. -/
theorem carry {q : ℕ} {t : ℤ} (most : q ≤ 2 ^ 53) (least : -1074 ≤ t)
    (full : 2 ^ 52 ≤ q ∨ t = -1074) (pos : 0 < q) :
    let last := shiftToTargetExponent .binary64 q t .exact
    0 < last.1.mantissa ∧ Canonical last.1.mantissa last.2 ∧
      magnitude last.1.mantissa last.2 = magnitude q t := by
  intro last
  have shifts : last.1.mantissa = q / 2 ^ (target q t - t).toNat := (shifted q _).quotient
  have exponent : last.2 = t + (target q t - t).toNat := rfl
  rcases most.lt_or_eq with short | rfl
  · have none : (target q t - t).toNat = 0 := by
      have digits := (Nat.log2_lt pos.ne').mpr short
      rw [target_def]
      omega
    rw [shifts, exponent, none, pow_zero, Nat.div_one, Nat.cast_zero, add_zero]
    exact ⟨pos, ⟨short, least, full⟩, rfl⟩
  · have one : (target (2 ^ 53) t - t).toNat = 1 := by
      rw [target_def, Nat.log2_two_pow]
      omega
    have half : 2 ^ 53 / 2 ^ 1 = 2 ^ 52 := rfl
    rw [shifts, exponent, one, half]
    refine ⟨by omega, ⟨by omega, by omega, Or.inl le_rfl⟩, ?_⟩
    have exponents : (t + (1 : ℕ) + 1074).toNat = (t + 1074).toNat + 1 := by omega
    rw [magnitude, magnitude, exponents]
    ring

theorem roundWithAccuracy_rounded (s : Sign) {m : ℕ} {e : ℤ} (pos : 0 < m) (least : -1074 ≤ e)
    (low : e ≤ target m e) :
    Rounded s (nearest (magnitude m e)) (roundWithAccuracy .binary64 s m e .exact) := by
  have chosen := target_eq pos least
  have positive := magnitude_pos pos e
  set n := magnitude m e with hn
  -- The digits of `m` beyond the exponent are the surplus digits of the number.
  have digits : (shiftToTargetExponent .binary64 m e .exact).1.roundedMantissa =
      roundedQuotient n (2 ^ surplus n) := by
    have split : surplus n = (target m e - e).toNat + (e + 1074).toNat := by omega
    rw [split, pow_add, hn, magnitude, roundedQuotient_scale _ _ (Nat.two_pow_pos _)]
    exact (shifted m _).rounded
  have exponent : (shiftToTargetExponent .binary64 m e .exact).2 = target m e := by
    show e + ((target m e - e).toNat : ℤ) = _
    omega
  obtain ⟨most, full⟩ := digits_bounds n
  have full' : 2 ^ 52 ≤ roundedQuotient n (2 ^ surplus n) ∨ target m e = -1074 := by omega
  obtain ⟨nonzero, canonical, same⟩ := carry most (by omega) full' (by omega)
  unfold roundWithAccuracy
  dsimp only
  rw [digits, exponent]
  refine ⟨_, _, nonzero, dif_neg nonzero.ne', canonical, same.trans ?_⟩
  rw [magnitude, nearest, chosen]
  congr 2
  omega

theorem round_rounded (s : Sign) {m : ℕ} {e : ℤ} (pos : 0 < m) (least : -1074 ≤ e) :
    Rounded s (nearest (magnitude m e)) (round .binary64 s m e) := by
  have chosen := target_eq pos least
  set k := (e - target m e).toNat with hk
  have widened : round .binary64 s m e =
      roundWithAccuracy .binary64 s (m <<< k) (e - k) .exact := rfl
  have positive : 0 < m <<< k := by
    rw [Nat.shiftLeft_eq]
    exact Nat.mul_pos pos (Nat.two_pow_pos _)
  have floor : -1074 ≤ e - k := by omega
  have same : magnitude (m <<< k) (e - k) = magnitude m e := by
    rw [magnitude_shiftLeft m k floor, sub_add_cancel]
  have rounded := roundWithAccuracy_rounded s positive floor
    (by rw [target_eq positive floor, same]; omega)
  rwa [widened, ← same]

end SoundLaw.Floating
