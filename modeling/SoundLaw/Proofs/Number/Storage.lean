import SoundLaw.Proofs.Number.Floating
import Mathlib

/-!
Floating-point numbers in their bits. A number that fits the format is read back as it was, one that
is too great as an infinity; and nothing but what is no number is read back as no number.
-/
namespace SoundLaw.Floating
open Float.Model UnpackedFloat

/-- What is read back from the bits of a number. -/
def store (x : UnpackedFloat) : UnpackedFloat :=
  UnpackedFloat.unpack .binary64 (UnpackedFloat.pack .binary64 x)

def Stored : UnpackedFloat → Prop
  | .finite _ m e _ => Canonical m e ∧ e ≤ 971
  | _ => True

theorem exponentBias_eq : (Format.binary64.exponentBias : ℤ) = 1023 := rfl

theorem toNat_withImplicit (v : BitVec 52) : (1#1 ++ v).toNat = 2 ^ 52 + v.toNat := by
  rw [BitVec.toNat_append, ← Nat.shiftLeft_add_eq_or_of_lt v.isLt]
  simp [Nat.shiftLeft_eq]

theorem stored_unpack (b : BitVec 64) : Stored (UnpackedFloat.unpack .binary64 b) := by
  have digits : (@unpackMantissa .binary64 b).toNat < 2 ^ 52 := BitVec.isLt _
  have exponent : (@unpackExponent .binary64 b).toNat < 2 ^ 11 := BitVec.isLt _
  unfold UnpackedFloat.unpack
  dsimp only
  split_ifs with top _ low _
  · trivial
  · trivial
  · trivial
  · rw [low, exponentBias_eq]
    exact ⟨⟨by omega, by simp, Or.inr (by simp)⟩, by simp⟩
  · have full := toNat_withImplicit (@unpackMantissa .binary64 b)
    have below : (@unpackExponent .binary64 b).toNat ≠ 2 ^ 11 - 1 :=
      fun same => top (BitVec.eq_of_toNat_eq same)
    have above : (@unpackExponent .binary64 b).toNat ≠ 0 :=
      fun same => low (BitVec.eq_of_toNat_eq same)
    rw [exponentBias_eq]
    exact ⟨⟨by omega, by omega, Or.inl (by omega)⟩, by omega⟩

/-! ### Reading back -/

theorem unpack_normal (s : Sign) {m b : ℕ} (short : m < 2 ^ 53) (full : 2 ^ 52 ≤ m) (low : 0 < b)
    (top : b < 2047) :
    UnpackedFloat.unpack .binary64 (packComponents .binary64 s (.ofNat 11 b) (.ofNat 52 m)) =
      .finite s m (b - 1075) (by omega) := by
  have exponent : (BitVec.ofNat 11 b).toNat = b := by rw [BitVec.toNat_ofNat]; omega
  have digits : (1#1 ++ BitVec.ofNat 52 m).toNat = m := by
    rw [toNat_withImplicit, BitVec.toNat_ofNat]; omega
  have not_top : BitVec.ofNat 11 b ≠ -1#11 := by
    rw [Ne, ← BitVec.toNat_inj, exponent]
    exact top.ne
  have not_low : BitVec.ofNat 11 b ≠ 0#11 := by
    rw [Ne, ← BitVec.toNat_inj, exponent]
    exact low.ne'
  unfold UnpackedFloat.unpack
  simp only [unpackExponent_packComponents, unpackMantissa_packComponents,
    unpackSign_packComponents, Sign.ofBitVec_toBitVec, if_neg not_top, if_neg not_low, digits, exponent]
  rfl

theorem unpack_subnormal (s : Sign) {m : ℕ} (pos : 0 < m) (short : m < 2 ^ 52) :
    UnpackedFloat.unpack .binary64 (packComponents .binary64 s 0#11 (.ofNat 52 m)) =
      .finite s m (-1074) pos := by
  have digits : (BitVec.ofNat 52 m).toNat = m := by rw [BitVec.toNat_ofNat]; omega
  have some : BitVec.ofNat 52 m ≠ 0#52 := by
    rw [Ne, ← BitVec.toNat_inj, digits]
    exact pos.ne'
  have top : 0#11 ≠ -1#11 := by decide
  unfold UnpackedFloat.unpack
  simp only [unpackExponent_packComponents, unpackMantissa_packComponents,
    unpackSign_packComponents, Sign.ofBitVec_toBitVec, if_neg top, if_pos, dif_neg some, digits]
  rfl

theorem pack_finite (s : Sign) {m : ℕ} {e : ℤ} (pos : 0 < m) :
    UnpackedFloat.pack .binary64 (.finite s m e pos) =
      if 2047 ≤ (e + 1075).toNat then packedInfinity .binary64 s
      else if m.log2 = 52 then
        packComponents .binary64 s (.ofNat 11 (e + 1075).toNat) (.ofNat 52 m)
      else packComponents .binary64 s 0#11 (.ofNat 52 m) := by
  have biased : e + 1075 = e + Format.binary64.exponentBias + (52 : ℕ) := by
    rw [exponentBias_eq]; omega
  rw [biased]
  unfold UnpackedFloat.pack
  refine if_congr ?_ rfl (if_congr ?_ rfl rfl)
  · show 2 ^ 11 ≤ (e + Format.binary64.exponentBias + (52 : ℕ)).toNat + 1 ↔ _
    omega
  · show m.log2 + 1 = 53 ↔ _
    omega

theorem store_infinity (s : Sign) : store (.infinity s) = .infinity s := by cases s <;> rfl

theorem store_zero (s : Sign) : store (.zero s) = .zero s := unpack_packedZero

theorem store_overflow (s : Sign) {m : ℕ} {e : ℤ} (pos : 0 < m) (great : 972 ≤ e) :
    store (.finite s m e pos) = .infinity s := by
  rw [store, pack_finite, if_pos (by omega)]
  exact store_infinity s

theorem store_finite (s : Sign) {m : ℕ} {e : ℤ} (pos : 0 < m) (canonical : Canonical m e)
    (fits : e ≤ 971) : store (.finite s m e pos) = .finite s m e pos := by
  obtain ⟨short, least, full⟩ := canonical
  have digits := (Nat.log2_lt pos.ne').mpr short
  have width : m.log2 = 52 ↔ 2 ^ 52 ≤ m := by rw [← Nat.le_log2 pos.ne']; omega
  rw [store, pack_finite, if_neg (by omega)]
  split_ifs with normal
  · rw [unpack_normal s short (width.mp normal) (by omega) (by omega)]
    congr 1
    omega
  · have lowest := full.resolve_left (mt width.mpr normal)
    rw [unpack_subnormal s pos (by omega), lowest]

theorem store_stored {x : UnpackedFloat} (stored : Stored x) (finite : x.isFinite = true) :
    store x = x := by
  cases x with
  | notANumber => cases finite
  | infinity s => cases finite
  | zero s => exact store_zero s
  | finite s m e pos => exact store_finite s pos stored.1 stored.2

/-! ### What stays a number -/

theorem unpack_isNaN {s : Sign} {e : BitVec 11} {m : BitVec 52} (number : e ≠ -1#11 ∨ m = 0#52) :
    (UnpackedFloat.unpack .binary64 (packComponents .binary64 s e m)).isNaN = false := by
  unfold UnpackedFloat.unpack
  simp only [unpackExponent_packComponents, unpackMantissa_packComponents]
  split_ifs with top digits low digits
  · rfl
  · rcases number with low | none
    · exact absurd top low
    · exact absurd none digits
  · rfl
  · rfl
  · rfl

theorem store_isNaN {x : UnpackedFloat} (number : x.isNaN = false) : (store x).isNaN = false := by
  cases x with
  | notANumber => cases number
  | infinity s => rw [store_infinity]; rfl
  | zero s => rw [store_zero]; rfl
  | finite s m e pos =>
    rw [store, pack_finite]
    split_ifs with great normal
    · exact unpack_isNaN (Or.inr rfl)
    · refine unpack_isNaN (Or.inl ?_)
      rw [Ne, ← BitVec.toNat_inj, BitVec.toNat_ofNat]
      show _ ≠ 2047
      omega
    · exact unpack_isNaN (Or.inl (by decide))

theorem roundWithAccuracy_isNaN (s : Sign) (m : ℕ) (e : ℤ) (accuracy : Accuracy) :
    (roundWithAccuracy .binary64 s m e accuracy).isNaN = false := by
  unfold roundWithAccuracy
  dsimp only
  split <;> rfl

theorem normalize_isNaN (z e : ℤ) (s : Sign) :
    (UnpackedFloat.normalize .binary64 z e s).isNaN = false := by
  unfold UnpackedFloat.normalize
  split
  · exact roundWithAccuracy_isNaN _ _ _ _
  · rfl
  · exact roundWithAccuracy_isNaN _ _ _ _

theorem mul_isNaN {a b : UnpackedFloat} {s : Sign} {m : ℕ} {e : ℤ} {pos : 0 < m}
    (number : a.isNaN = false) (factor : b = .finite s m e pos) :
    (UnpackedFloat.mul .binary64 a b).isNaN = false := by
  subst factor
  cases a with
  | notANumber => cases number
  | infinity s => rfl
  | zero s => rfl
  | finite s' n f hn => exact roundWithAccuracy_isNaN _ _ _ _

theorem ofScientific_isNaN (k : ℕ) :
    (UnpackedFloat.ofScientific .binary64 k 0).isNaN = false := by
  unfold UnpackedFloat.ofScientific
  split_ifs
  · rfl
  · rfl
  · rfl
  · exact mul_isNaN rfl rfl
  · omega

theorem ofNat_isNaN (k : ℕ) : (Float.ofNat k).toModel.unpack.isNaN = false := by
  obtain ⟨s, m, e, pos, one⟩ : ∃ s m e pos,
      Float.exactlyRepresentablePowersOfTen[0].toModel.unpack = .finite s m e pos :=
    ⟨.positive, _, _, _, by rfl⟩
  show (Float.ofScientific k false 0).toModel.unpack.isNaN = false
  unfold Float.ofScientific
  split
  · exact store_isNaN (mul_isNaN (store_isNaN (normalize_isNaN _ _ _)) one)
  · exact store_isNaN (ofScientific_isNaN k)

end SoundLaw.Floating
