import SoundLaw.Text.Digits
import Mathlib.Data.List.Basic

/-!
Numerals read back: the decimal numeral of a number has its value and no needless zero in front,
and four hexadecimal digits give back every number of sixteen bits.
-/
namespace SoundLaw.Text

/-! ### Digits -/

theorem digitValue?_digit {d : Nat} (small : d < 16) : digitValue? (digit d) = some d := by
  have all : ∀ d < 16, digitValue? (digit d) = some d := by decide
  exact all d small

theorem digitValue?_digitChar {d : Nat} (small : d < 10) :
    digitValue? (Nat.digitChar d) = some d := by
  have all : ∀ d < 10, digitValue? (Nat.digitChar d) = some d := by decide
  exact all d small

theorem isDigitIn_digitChar {d : Nat} (small : d < 10) :
    isDigitIn 10 (Nat.digitChar d) = true := by
  simp [isDigitIn, digitValue?_digitChar small, small]

theorem value_append_digit (base : Nat) (digits : Text) (c : Char) :
    value base (digits ++ [c]) = value base digits * base + (digitValue? c).getD 0 := by
  simp [value]

/-! ### Decimal numerals -/

theorem decimal_of_lt {n : Nat} (small : n < 10) : decimal n = [Nat.digitChar n] :=
  Nat.toDigits_of_lt_base small

theorem decimal_of_le {n : Nat} (great : 10 ≤ n) :
    decimal n = decimal (n / 10) ++ [Nat.digitChar (n % 10)] :=
  Nat.toDigits_of_base_le (by decide) great

theorem decimal_ne_nil (n : Nat) : decimal n ≠ [] := Nat.toDigits_ne_nil

theorem value_decimal (n : Nat) : value 10 (decimal n) = n := by
  induction n using Nat.strongRecOn with
  | ind n ih =>
    by_cases small : n < 10
    · rw [decimal_of_lt small]
      simp [value, digitValue?_digitChar small]
    · have last : n % 10 < 10 := Nat.mod_lt n (by decide)
      rw [decimal_of_le (Nat.le_of_not_lt small), value_append_digit, ih (n / 10) (by omega),
        digitValue?_digitChar last, Option.getD_some]
      omega

theorem decimal_digits (n : Nat) : ∀ c ∈ decimal n, isDigitIn 10 c = true := by
  induction n using Nat.strongRecOn with
  | ind n ih =>
    intro c member
    by_cases small : n < 10
    · rw [decimal_of_lt small, List.mem_singleton] at member
      rw [member]
      exact isDigitIn_digitChar small
    · rw [decimal_of_le (Nat.le_of_not_lt small), List.mem_append, List.mem_singleton] at member
      rcases member with front | last
      · exact ih (n / 10) (by omega) c front
      · rw [last]
        exact isDigitIn_digitChar (Nat.mod_lt n (by decide))

theorem decimal_head {n : Nat} (positive : 0 < n) : (decimal n).head? ≠ some '0' := by
  induction n using Nat.strongRecOn with
  | ind n ih =>
    by_cases small : n < 10
    · have all : ∀ d < 10, 0 < d → Nat.digitChar d ≠ '0' := by decide
      rw [decimal_of_lt small]
      simpa using all n small positive
    · rw [decimal_of_le (Nat.le_of_not_lt small), List.head?_append_of_ne_nil _ (decimal_ne_nil _)]
      exact ih (n / 10) (by omega) (by omega)

theorem decimal_lean (n : Nat) :
    ¬ (1 < (decimal n).length ∧ (decimal n).head? = some '0') := by
  rintro ⟨long, zero⟩
  rcases Nat.eq_zero_or_pos n with rfl | positive
  · simp [decimal] at long
  · exact decimal_head positive zero

/-! ### Hexadecimal digits -/

theorem hex_four (n : Nat) :
    hex 4 n = [digit (n / 16 / 16 / 16 % 16), digit (n / 16 / 16 % 16), digit (n / 16 % 16),
      digit (n % 16)] := rfl

theorem value_hex_four {n : Nat} (small : n < 0x10000) : value 16 (hex 4 n) = n := by
  have below (m : Nat) : m % 16 < 16 := Nat.mod_lt m (by decide)
  simp only [hex_four, value, List.foldl_cons, List.foldl_nil, digitValue?_digit (below _),
    Option.getD_some]
  omega

theorem hex_four_digits (n : Nat) : (hex 4 n).all (isDigitIn 16) = true := by
  have below (m : Nat) : m % 16 < 16 := Nat.mod_lt m (by decide)
  simp [hex_four, isDigitIn, digitValue?_digit (below _), below]

end SoundLaw.Text
