import SoundLaw.Regex.Reader
import Mathlib.Tactic.SplitIfs

/-!
The parentheses of a pattern, seen without reading it. Escaped characters, comments and classes of
characters are passed over; what is left tells which parenthesis is the first that closes nothing.
A context is closed if the parenthesis put after it is that one.
-/
namespace SoundLaw.Regex

/-- What a text stands in; at its first member a class is not yet closed by a bracket. -/
inductive Zone where
  | pattern
  | comment
  | members (first : Bool)
deriving DecidableEq

def isPropertyValuePart (c : Char) : Bool := Read.isPropertyNamePart c || c = '/'

def valueLength : Text → Nat
  | [] => 0
  | sign :: rest =>
    let value := rest.takeWhile isPropertyValuePart
    if (sign = ':' ∨ sign = '=') ∧ value.any (· ≠ ' ') then value.length + 1 else 0

def propertyLength (t : Text) : Nat :=
  let name := t.takeWhile Read.isPropertyNamePart
  name.length + valueLength (t.drop name.length)

/-- The length of what follows the opening of a class up to the end of a named class, whose name
begins at `start`; nothing if it is none. -/
def namedFrom (start : Nat) (t : Text) : Nat :=
  let stop := start + propertyLength (t.drop start)
  if (t.drop stop).take 2 = [':', ']'] then stop + 2 else 0

def namedLength (t : Text) : Nat :=
  if t.head? = some ':' then namedFrom (if (t.drop 1).head? = some '^' then 2 else 1) t else 0

/-- Passes over `skip` characters, then finds the first parenthesis that closes more than the
`depth` groups open here; the text from there on. -/
def closing : Nat → Zone → Nat → Text → Option Text
  | _, _, _, [] => none
  | depth, zone, skip + 1, _ :: rest => closing depth zone skip rest
  | depth, .pattern, 0, c :: rest =>
    if c = '\\' then closing depth .pattern 1 rest
    else if c = '[' then
      if rest.head? = some '^' then closing depth (.members true) 1 rest
      else closing depth (.members true) 0 rest
    else if c = '(' then
      if rest.take 2 = ['?', '#'] then closing depth .comment 2 rest
      else closing (depth + 1) .pattern 0 rest
    else if c = ')' then
      match depth with
      | 0 => some (c :: rest)
      | depth + 1 => closing depth .pattern 0 rest
    else closing depth .pattern 0 rest
  | depth, .comment, 0, c :: rest =>
    if c = '\\' then closing depth .comment 1 rest
    else if c = ')' then closing depth .pattern 0 rest
    else closing depth .comment 0 rest
  | depth, .members first, 0, c :: rest =>
    if c = ']' ∧ first = false then closing depth .pattern 0 rest
    else if c = '\\' then closing depth (.members false) 1 rest
    else if c = '[' then closing depth (.members false) (namedLength rest) rest
    else closing depth (.members false) 0 rest

/-- Whether the parenthesis put after a text is the first that closes nothing in it. -/
def Closed (t : Text) : Prop := closing 0 .pattern 0 (t ++ [')']) = some [')']

instance (t : Text) : Decidable (Closed t) := by unfold Closed; infer_instance

/-! ### What stands after the parenthesis does not count -/

variable {more : Text}

theorem takeWhile_cut {p : Char → Bool} (stops : p ')' = false) (t : Text) :
    (t ++ ')' :: more).takeWhile p = t.takeWhile p := by
  induction t with
  | nil => simp [stops]
  | cons c t ih => cases h : p c <;> simp [h, ih]

theorem head_cut {c : Char} (other : c ≠ ')') (t : Text) :
    (t ++ ')' :: more).head? = some c ↔ t.head? = some c := by
  cases t with
  | nil => simp [Ne.symm other]
  | cons d t => simp

theorem take_two_cut {c d : Char} (first : c ≠ ')') (second : d ≠ ')') (t : Text) :
    (t ++ ')' :: more).take 2 = [c, d] ↔ t.take 2 = [c, d] := by
  cases t with
  | nil => simp [Ne.symm first]
  | cons e t =>
    cases t with
    | nil => simp [Ne.symm second]
    | cons f t => simp

theorem drop_cut {n : Nat} {t : Text} (short : n ≤ t.length) :
    (t ++ ')' :: more).drop n = t.drop n ++ ')' :: more :=
  List.drop_append_of_le_length short

theorem takeWhile_le (p : Char → Bool) (t : Text) : (t.takeWhile p).length ≤ t.length :=
  (List.takeWhile_prefix p).length_le

theorem valueLength_le (t : Text) : valueLength t ≤ t.length := by
  cases t with
  | nil => exact Nat.le_refl _
  | cons sign rest =>
    have shorter := takeWhile_le isPropertyValuePart rest
    simp only [valueLength, List.length_cons]
    split <;> omega

theorem propertyLength_le (t : Text) : propertyLength t ≤ t.length := by
  have name := takeWhile_le Read.isPropertyNamePart t
  have value := valueLength_le (t.drop (t.takeWhile Read.isPropertyNamePart).length)
  simp only [propertyLength, List.length_drop] at value ⊢
  omega

theorem valueLength_cut (t : Text) : valueLength (t ++ ')' :: more) = valueLength t := by
  cases t with
  | nil => simp [valueLength]
  | cons sign rest =>
    have value : (rest ++ ')' :: more).takeWhile isPropertyValuePart =
        rest.takeWhile isPropertyValuePart := takeWhile_cut (by decide) rest
    simp only [List.cons_append, valueLength, value]

theorem propertyLength_cut (t : Text) : propertyLength (t ++ ')' :: more) = propertyLength t := by
  have name : (t ++ ')' :: more).takeWhile Read.isPropertyNamePart =
      t.takeWhile Read.isPropertyNamePart := takeWhile_cut (by decide) t
  simp only [propertyLength, name, drop_cut (takeWhile_le _ t), valueLength_cut]

theorem namedFrom_cut {start : Nat} {t : Text} (short : start ≤ t.length) :
    namedFrom start (t ++ ')' :: more) = namedFrom start t := by
  have stop_le : start + propertyLength (t.drop start) ≤ t.length := by
    have le := propertyLength_le (t.drop start)
    rw [List.length_drop] at le
    omega
  simp only [namedFrom, drop_cut short, propertyLength_cut, drop_cut stop_le,
    take_two_cut (by decide : ':' ≠ ')') (by decide : ']' ≠ ')')]

theorem namedLength_cut (t : Text) : namedLength (t ++ ')' :: more) = namedLength t := by
  cases t with
  | nil => simp [namedLength]
  | cons c t =>
    have negated : (t ++ ')' :: more).head? = some '^' ↔ t.head? = some '^' :=
      head_cut (by decide) t
    simp only [namedLength, List.cons_append, List.head?_cons, List.drop_succ_cons,
      List.drop_zero, negated]
    split
    · refine namedFrom_cut (t := c :: t) ?_
      cases t with
      | nil => simp
      | cons d t => split <;> simp
    · rfl

/-- A parenthesis that is found is found whatever follows. -/
theorem closing_extend {t r : Text} {depth skip : Nat} {zone : Zone}
    (found : closing depth zone skip (t ++ [')']) = some r) :
    closing depth zone skip (t ++ ')' :: more) = some (r ++ more) := by
  induction t generalizing depth zone skip with
  | nil =>
    cases skip with
    | succ n => simp [closing] at found
    | zero =>
      cases zone with
      | pattern =>
        cases depth with
        | zero => simp [closing] at found ⊢; simp [← found]
        | succ depth => simp [closing] at found
      | comment => simp [closing] at found
      | members first => simp [closing] at found
  | cons c t ih =>
    cases skip with
    | succ n => exact ih found
    | zero =>
      cases zone with
      | pattern =>
        have negated : (t ++ ')' :: more).head? = some '^' ↔ (t ++ [')']).head? = some '^' := by
          rw [head_cut (by decide), head_cut (by decide)]
        have mark : (t ++ ')' :: more).take 2 = ['?', '#'] ↔ (t ++ [')']).take 2 = ['?', '#'] := by
          rw [take_two_cut (by decide) (by decide), take_two_cut (by decide) (by decide)]
        simp only [List.cons_append, closing, negated, mark] at found ⊢
        by_cases closes : c = ')'
        · subst closes
          cases depth with
          | zero => simp at found ⊢; simp [← found]
          | succ depth => exact ih (by simpa using found)
        · simp only [closes, ↓reduceIte] at found ⊢
          split_ifs at found ⊢ <;> exact ih found
      | comment =>
        simp only [List.cons_append, closing] at found ⊢
        split_ifs at found ⊢ <;> exact ih found
      | members first =>
        simp only [List.cons_append, closing, namedLength_cut] at found ⊢
        split_ifs at found ⊢ <;> exact ih found

theorem closing_of_closed {t : Text} (closed : Closed t) (more : Text) :
    closing 0 .pattern 0 (t ++ ')' :: more) = some (')' :: more) :=
  closing_extend closed

end SoundLaw.Regex
