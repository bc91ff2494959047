import SoundLaw.Rule.Application

/-!
Feature rules token by token: the tokens of a word before and after a rule, and when the rule
counts as a change.
-/
namespace SoundLaw.FeatureRule
variable {r : FeatureRule} {m : Model}

theorem shiftFrom_length (target : Expression) (replacement : Replacement)
    (previous : Option Text) (tokens : List Text) :
    (shiftFrom r m target replacement previous tokens).length = tokens.length := by
  induction tokens generalizing previous with
  | nil => rfl
  | cons token rest ih => simp [shiftFrom, ih]

theorem changes_eq_nil_iff (replacement : Replacement) {olds news : List Text}
    (same_length : news.length = olds.length) :
    changes replacement olds news = [] ↔ news = olds := by
  induction olds generalizing news with
  | nil =>
    have empty : news = [] := List.length_eq_zero_iff.mp same_length
    simp [empty, changes]
  | cons old olds ih =>
    cases news with
    | nil => cases same_length
    | cons new news =>
      have shorter := ih (Nat.succ.inj same_length)
      by_cases same : old = new
      · simp [changes, same, shorter]
      · simp [changes, same, Ne.symm same]

def tokensBefore (m : Model) (inventory : List Text) (word : Text) : List Text :=
  tokenize (if inventory.isEmpty then m.phonemes else inventory) word

def tokensAfter (r : FeatureRule) (m : Model) (inventory : List Text) (word : Text) : List Text :=
  match r.target, r.replacement with
  | some target, some replacement =>
    if hasException word r.exceptions then tokensBefore m inventory word
    else shiftFrom r m target replacement none (tokensBefore m inventory word)
  | _, _ => tokensBefore m inventory word

variable (r m) (inventory : List Text) (word : Text)

theorem spell_tokensBefore : spell (tokensBefore m inventory word) = word :=
  spell_tokenize _ word

theorem apply_result :
    (r.apply m inventory word).result = spell (r.tokensAfter m inventory word) := by
  unfold apply tokensAfter
  cases r.target with
  | none => exact (spell_tokensBefore m inventory word).symm
  | some target =>
    cases r.replacement with
    | none => exact (spell_tokensBefore m inventory word).symm
    | some replacement => rfl

theorem apply_changed_iff :
    (r.apply m inventory word).changed = true ↔
      r.tokensAfter m inventory word ≠ tokensBefore m inventory word := by
  unfold apply tokensAfter
  cases r.target with
  | none => simp
  | some target =>
    cases r.replacement with
    | none => simp
    | some replacement =>
      simp only [Bool.not_eq_true', List.isEmpty_eq_false_iff]
      refine not_congr (changes_eq_nil_iff replacement ?_)
      split
      · rfl
      · exact shiftFrom_length target replacement none _

theorem apply_details :
    (r.apply m inventory word).changed = !(r.apply m inventory word).details.isEmpty := by
  unfold apply
  split <;> rfl

end SoundLaw.FeatureRule
