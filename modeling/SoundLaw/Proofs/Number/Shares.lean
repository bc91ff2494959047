import SoundLaw.Proofs.Number.Worth

/-!
Quotients of whole numbers. The share of some things among more is short of one by a number that is
told apart from zero, as long as the numbers have at most 53 digits.
-/
namespace SoundLaw.Floating
open Float.Model UnpackedFloat Scale

variable {x y : Float} {r s : ℕ}

/-! ### Numbers between a sixteenth and one -/

def sixteenth : ℕ := 2 ^ 1070

theorem worth_sixteenth : Worth 0.0625 sixteenth := by
  have one : (0.0625 : Float).toModel.unpack = .finite .positive (2 ^ 52) (-56) (by omega) := by rfl
  have digits : magnitude (2 ^ 52) (-56) = sixteenth := by decide +kernel
  unfold Worth
  rw [one, worth, digits]

theorem worth_between (low : atMost 0.0625 x = true) (high : atMost x 1.0 = true) :
    ∃ r, Worth x r ∧ sixteenth ≤ r ∧ r ≤ unity := by
  have above : less 0.0625 0.0 = false := by decide
  have positive : less 0.0 x = true := by
    refine (Ordered.less_iff _ _).mpr ⟨Ordered.trans (by decide) low, fun back => ?_⟩
    have below : atMost (0.0625 : Float) 0.0 = true := Ordered.trans low back
    exact absurd below (by decide)
  obtain ⟨r, _, value⟩ := worth_of_less positive
  exact ⟨r, value, (worth_sixteenth.atMost_iff value).mp low, (value.atMost_iff worth_one).mp high⟩

/-- A factor between a sixteenth and one does not raise a number, and lowers it to a sixteenth at
most. -/
theorem Worth.mul_between {least : ℕ} (value : Worth x r) (pos : 0 < r) (finite : r < limit)
    (low : atMost 0.0625 y = true) (high : atMost y 1.0 = true) (short : Short least)
    (le : least * unity ≤ r * sixteenth) : ∃ t, Worth (x * y) t ∧ least ≤ t ∧ t ≤ r := by
  obtain ⟨s, factor, above, below⟩ := worth_between low high
  have some : 0 < s := (pow_pos (by omega) _ : 0 < sixteenth).trans_le above
  obtain ⟨t, rounds, product⟩ :=
    value.mul factor pos some finite (below.trans_lt one_lt_limit)
  have most : t ≤ r := rounds.below value.short (Nat.mul_le_mul_left r below)
  rw [min_eq_left (most.trans finite.le)] at product
  exact ⟨t, product, rounds.above short (le.trans (Nat.mul_le_mul_left r above)), most⟩

/-! ### Quotients by a divisor -/

def Divisor (y : Float) : Prop := ∃ s, Worth y s ∧ 0 < s ∧ s < limit

theorem Divisor.positive (divisor : Divisor y) : less 0.0 y = true := by
  obtain ⟨s, value, pos, _⟩ := divisor
  exact (worth_zero.less_iff value).mpr pos

theorem Divisor.zero_div (divisor : Divisor y) : 0.0 / y = 0.0 := by
  obtain ⟨s, value, pos, finite⟩ := divisor
  exact (value.zero_div pos finite).unique worth_zero

theorem Divisor.div_self (divisor : Divisor y) : y / y = 1.0 := by
  obtain ⟨s, value, pos, finite⟩ := divisor
  obtain ⟨t, rounds, quotient⟩ := value.div value pos pos finite finite
  rw [rounds.exact short_unity (Nat.mul_comm _ _), min_eq_left one_lt_limit.le] at quotient
  exact quotient.unique worth_one

theorem divisor_count {k : ℕ} (pos : 0 < k) (small : k < 2 ^ 53) : Divisor (count k) :=
  ⟨_, worth_count small, Nat.mul_pos pos unity_pos, count_lt_limit small⟩

theorem divisor_one : Divisor 1.0 := ⟨unity, worth_one, unity_pos, one_lt_limit⟩

theorem Worth.div_one (value : Worth x r) : x / 1.0 = x := by
  rcases Nat.eq_zero_or_pos r with rfl | pos
  · rw [value.unique worth_zero]
    exact divisor_one.zero_div
  · rcases value.le_limit.lt_or_eq with finite | infinite
    · obtain ⟨t, rounds, quotient⟩ := value.div worth_one pos unity_pos finite one_lt_limit
      rw [rounds.exact value.short rfl, min_eq_left finite.le] at quotient
      exact quotient.unique value
    · rw [infinite] at value
      exact (value.limit_div worth_one unity_pos one_lt_limit).unique value

/-! ### Shares -/

theorem worth_share {j k : ℕ} (pos : 0 < k) (small : k < 2 ^ 53) (le : j ≤ k) :
    ∃ q, Rounds (j * unity) k q ∧ Worth (count j / count k) q := by
  rcases Nat.eq_zero_or_pos j with rfl | some
  · refine ⟨0, ?_, ?_⟩
    · rw [Nat.zero_mul]
      exact rounds_zero pos
    · rw [count_zero, (divisor_count pos small).zero_div]
      exact worth_zero
  · have small' : j < 2 ^ 53 := le.trans_lt small
    obtain ⟨q, rounds, quotient⟩ := (worth_count small').div (worth_count small)
      (Nat.mul_pos some unity_pos) (Nat.mul_pos pos unity_pos) (count_lt_limit small')
      (count_lt_limit small)
    rw [rounds_scale unity_pos] at rounds
    have bounded : q ≤ unity := by
      refine rounds.below short_unity ?_
      rw [Nat.mul_comm]
      exact Nat.mul_le_mul_left unity le
    rw [min_eq_left (bounded.trans one_lt_limit.le)] at quotient
    exact ⟨q, rounds, quotient⟩

def grain : ℕ := 2 ^ 1021

theorem unity_eq : unity = 2 ^ 53 * grain := by decide +kernel

theorem grain_pos : 0 < grain := pow_pos (by omega) _

theorem short_grains {m : ℕ} (small : m ≤ 2 ^ 53) : Short (m * grain) := by
  rcases small.lt_or_eq with less | whole
  · rw [grain]
    exact ⟨m, _, less, rfl⟩
  · rw [whole, ← unity_eq]
    exact short_unity

theorem worth_rest {j k : ℕ} (small : k < 2 ^ 53) (less : j < k) :
    ∃ r, Worth (1.0 - count j / count k) r ∧ grain ≤ r ∧ r ≤ unity := by
  obtain ⟨q, rounds, share⟩ := worth_share (by omega) small less.le
  have short : q ≤ (2 ^ 53 - 1) * grain := by
    refine rounds.below (short_grains (by omega)) ?_
    have parts : j * 2 ^ 53 ≤ (2 ^ 53 - 1) * k := by omega
    calc
      j * unity = j * 2 ^ 53 * grain := by rw [unity_eq, Nat.mul_assoc]
      _ ≤ (2 ^ 53 - 1) * k * grain := Nat.mul_le_mul_right grain parts
      _ = (2 ^ 53 - 1) * grain * k := by ring
  have whole : (2 ^ 53 - 1) * grain + grain = unity := by rw [unity_eq]; ring
  have one : Short grain := by simpa using @short_grains 1 (by omega)
  have pos := grain_pos
  have finite := one_lt_limit
  have part : q < unity := by omega
  refine ⟨_, worth_one.sub share one_lt_limit part, ?_, fit_le short_unity (Nat.sub_le _ _)⟩
  exact le_fit one (by omega) (by omega)

/-- Fractions of small denominators are so far apart that rounding keeps them apart. -/
theorem rounds_less {j k j' k' q q' : ℕ} (first : Rounds (j * unity) k q)
    (second : Rounds (j' * unity) k' q') (small : k * k' ≤ 2 ^ 52) (whole : j' ≤ k')
    (less : j * k' < j' * k) : q < q' := by
  have pos := first.pos
  have pos' := second.pos
  -- The first grain above the first fraction and the next one, which the second fraction reaches.
  set g := j * 2 ^ 53 / k + 1 with hg
  have split := Nat.div_add_mod' (j * 2 ^ 53) k
  have rest := Nat.mod_lt (j * 2 ^ 53) pos
  have above : j * 2 ^ 53 ≤ g * k := by
    rw [hg, Nat.add_mul, Nat.one_mul]
    omega
  have floor : (g + 1) * k ≤ j * 2 ^ 53 + 2 * k := by
    rw [hg, Nat.add_mul, Nat.add_mul, Nat.one_mul]
    omega
  have reached : (g + 1) * k' ≤ j' * 2 ^ 53 := by
    refine Nat.le_of_mul_le_mul_right ?_ pos
    calc
      (g + 1) * k' * k = (g + 1) * k * k' := Nat.mul_right_comm ..
      _ ≤ (j * 2 ^ 53 + 2 * k) * k' := Nat.mul_le_mul_right k' floor
      _ = j * k' * 2 ^ 53 + 2 * (k * k') := by ring
      _ ≤ j * k' * 2 ^ 53 + 2 * 2 ^ 52 := Nat.add_le_add_left (Nat.mul_le_mul_left 2 small) _
      _ = (j * k' + 1) * 2 ^ 53 := by ring
      _ ≤ j' * k * 2 ^ 53 := Nat.mul_le_mul_right _ less
      _ = j' * 2 ^ 53 * k := Nat.mul_right_comm ..
  have size : g + 1 ≤ 2 ^ 53 := by
    refine Nat.le_of_mul_le_mul_right (reached.trans ?_) pos'
    rw [Nat.mul_comm]
    exact Nat.mul_le_mul_left _ whole
  have lower : q ≤ g * grain := by
    refine first.below (short_grains (by omega)) ?_
    calc
      j * unity = j * 2 ^ 53 * grain := by rw [unity_eq, Nat.mul_assoc]
      _ ≤ g * k * grain := Nat.mul_le_mul_right grain above
      _ = g * grain * k := by ring
  have upper : (g + 1) * grain ≤ q' := by
    refine second.above (short_grains size) ?_
    calc
      (g + 1) * grain * k' = (g + 1) * k' * grain := by ring
      _ ≤ j' * 2 ^ 53 * grain := Nat.mul_le_mul_right grain reached
      _ = j' * unity := by rw [unity_eq, Nat.mul_assoc]
  have next : g * grain < (g + 1) * grain := Nat.mul_lt_mul_of_pos_right (Nat.lt_succ_self g) grain_pos
  exact (lower.trans_lt next).trans_le upper

/-- Computed shares compare as the exact fractions, as long as these have small denominators. -/
theorem less_share_iff {j k j' k' : ℕ} (pos : 0 < k) (pos' : 0 < k') (le : j ≤ k) (le' : j' ≤ k')
    (small : k < 2 ^ 26) (small' : k' < 2 ^ 26) :
    less (count j / count k : Float) (count j' / count k') = true ↔ j * k' < j' * k := by
  have product : k * k' ≤ 2 ^ 52 := by
    calc
      k * k' ≤ 2 ^ 26 * 2 ^ 26 := Nat.mul_le_mul small.le small'.le
      _ = 2 ^ 52 := by norm_num
  obtain ⟨q, rounds, value⟩ := worth_share pos (small.trans (by norm_num)) le
  obtain ⟨q', rounds', value'⟩ := worth_share pos' (small'.trans (by norm_num)) le'
  rw [value.less_iff value']
  rcases Nat.lt_trichotomy (j * k') (j' * k) with less | same | greater
  · exact iff_of_true (rounds_less rounds rounds' product le' less) less
  · have equal : q = q' := by
      refine rounds.unique rounds' ?_
      rw [Nat.mul_right_comm, same, Nat.mul_right_comm]
    exact iff_of_false equal.not_lt same.not_lt
  · rw [Nat.mul_comm k] at product
    have above := rounds_less rounds' rounds product le greater
    exact iff_of_false above.not_gt greater.not_gt

end SoundLaw.Floating
