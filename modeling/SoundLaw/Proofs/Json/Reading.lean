import SoundLaw.Json.Reader
import SoundLaw.Json.Writer
import SoundLaw.Proofs.Text.Digits
import Mathlib.Data.List.DropRight

/-!
The parts of a JSON text read back: what the writer makes of a text or a whole number, the reader
takes for that text or number and leaves what follows.
-/
namespace SoundLaw.Json

/-! ### Blanks -/

theorem skipSpace_newLine (level : Nat) (rest : Text) :
    skipSpace (newLine level ++ rest) = skipSpace rest := by
  have blanks (n : Nat) : skipSpace (List.replicate n ' ' ++ rest) = skipSpace rest := by
    induction n with
    | zero => rfl
    | succ n ih => exact ih
  exact blanks (2 * level)

theorem skipSpace_skipSpace (t : Text) : skipSpace (skipSpace t) = skipSpace t :=
  List.dropWhile_idempotent _ t

/-! ### Texts -/

theorem unit?_hex {n : Nat} (small : n < 0x10000) :
    unit? (Text.digit (n / 16 / 16 / 16 % 16)) (Text.digit (n / 16 / 16 % 16))
      (Text.digit (n / 16 % 16)) (Text.digit (n % 16)) = some n := by
  have digits := Text.hex_four_digits n
  have value := Text.value_hex_four small
  rw [Text.hex_four] at digits value
  rw [unit?, if_pos digits, value]

theorem readUnits_plain {c : Char} (rest : Text) (unquoted : c ≠ '"') (unescaped : c ≠ '\\')
    (visible : ¬ c.toNat < 0x20) :
    readUnits (c :: rest) = (readUnits rest).map fun (units, rest) => (c.toNat :: units, rest) := by
  rw [readUnits.eq_def]
  split
  case h_5 c rest _ _ _ same =>
    cases same
    rw [if_neg visible]
  all_goals simp_all

theorem readUnits_escape (c : Char) (rest : Text) :
    readUnits (escape c ++ rest) =
      (readUnits rest).map fun (units, rest) => (c.toNat :: units, rest) := by
  unfold escape escapeRequired?
  split
  · subst c; rfl
  split
  · subst c; rfl
  split
  · subst c; rfl
  split
  · subst c; rfl
  split
  · subst c; rfl
  split
  · subst c; rfl
  split
  · subst c; rfl
  split
  · rename_i control
    simp only [Option.getD_some, Text.hex_four, List.cons_append, List.nil_append, readUnits,
      unit?_hex (Nat.lt_trans control (by decide))]
  · rename_i unquoted unescaped _ _ _ _ _ visible
    exact readUnits_plain rest unquoted unescaped visible

theorem readUnits_written (t rest : Text) :
    readUnits (t.flatMap escape ++ '"' :: rest) = some (t.map Char.toNat, rest) := by
  induction t with
  | nil => rfl
  | cons c t ih =>
    rw [List.flatMap_cons, List.append_assoc, readUnits_escape, ih]
    rfl

theorem not_unit (c : Char) : isHighUnit c.toNat = false ∧ isLowUnit c.toNat = false := by
  have valid : c.toNat < 0xD800 ∨ 0xDFFF < c.toNat ∧ c.toNat < 0x110000 := c.valid
  simp only [isHighUnit, isLowUnit, Bool.and_eq_false_iff, decide_eq_false_iff_not]
  omega

theorem joinUnits?_map (t : Text) : joinUnits? (t.map Char.toNat) = some t := by
  induction t with
  | nil => rfl
  | cons c rest ih =>
    cases rest with
    | nil => simp [joinUnits?, not_unit]
    | cons d rest =>
      rw [List.map_cons] at ih ⊢
      rw [List.map_cons, joinUnits?, ih]
      simp [not_unit]

theorem readString_written (t rest : Text) :
    readString (t.flatMap escape ++ '"' :: rest) = some (t, rest) := by
  simp [readString, readUnits_written, joinUnits?_map]

/-! ### Whole numbers -/

/-- What may follow a whole number: nothing that would go on with it. -/
def EndsNumber (rest : Text) : Prop :=
  ∀ c ∈ rest.head?, Text.isDigitIn 10 c = false ∧ c ≠ '.' ∧ c ≠ 'e' ∧ c ≠ 'E'

theorem readDigits_decimal (n : Nat) {rest : Text} (ends : EndsNumber rest) :
    readDigits (Text.decimal n ++ rest) = (Text.decimal n, rest) := by
  have stop : rest.takeWhile (Text.isDigitIn 10) = [] ∧
      rest.dropWhile (Text.isDigitIn 10) = rest := by
    cases rest with
    | nil => exact ⟨rfl, rfl⟩
    | cons c rest => simp [(ends c rfl).1]
  rw [readDigits, List.takeWhile_append_of_pos (Text.decimal_digits n),
    List.dropWhile_append_of_pos (Text.decimal_digits n), stop.1, stop.2, List.append_nil]

theorem readFraction_ends {rest : Text} (ends : EndsNumber rest) :
    readFraction rest = some (none, rest) := by
  cases rest with
  | nil => rfl
  | cons c rest =>
    unfold readFraction
    split
    · rename_i same
      cases same
      exact absurd rfl (ends '.' rfl).2.1
    · rfl

theorem readPower_ends {rest : Text} (ends : EndsNumber rest) :
    readPower rest = some (none, rest) := by
  cases rest with
  | nil => rfl
  | cons c rest => simp [readPower, (ends c rfl).2.2.1, (ends c rfl).2.2.2]

theorem readNumber_decimal {limits : Limits} {negative : Bool} {n : Nat} {rest : Text}
    (ends : EndsNumber rest) (kept : limits.keepsInt (if negative then -(n : Int) else n) = true) :
    readNumber limits negative (Text.decimal n ++ rest) =
      some (.int (if negative then -(n : Int) else n), rest) := by
  have lean : ((Text.decimal n).isEmpty || (decide ((Text.decimal n).length > 1) &&
      (Text.decimal n).head? == some '0')) = false := by
    simpa [Text.decimal_ne_nil] using Text.decimal_lean n
  simp only [readNumber, readDigits_decimal n ends, lean, readFraction_ends ends,
    readPower_ends ends, Text.value_decimal, bind, Option.bind, kept, Option.isNone_none,
    Bool.and_self, Bool.false_eq_true, ↓reduceIte]

end SoundLaw.Json
