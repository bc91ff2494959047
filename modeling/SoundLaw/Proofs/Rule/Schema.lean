import SoundLaw.Rule.Schema
import SoundLaw.Proofs.Schema.Check

/-!
Fields that spell a rule pass the check of its mode and give the rule itself. A field may be left
out where the rule has the default value; a field that no rule of the mode has may not stand there.
-/
namespace SoundLaw
open Json Fields

def Json.IsText (t : Text) (v : Json) : Prop := v = .text t

def Json.IsTexts (l : List Text) (v : Json) : Prop := v = .texts l

theorem checkText_pure (t : Text) (v : Json) (spelled : IsText t v) : checkText v = pure t := by
  rw [show v = .text t from spelled]
  rfl

theorem checkTexts_pure (l : List Text) (v : Json) (spelled : IsTexts l v) :
    checkTexts v = pure l := by
  rw [show v = .texts l from spelled, checkTexts_texts]

/-! ### Features -/

def Expression.SpelledBy (e : Expression) (v : Json) : Prop :=
  ∃ fields : Fields, v = .object fields ∧ fields.Gives IsTexts "positive" [] e.positive ∧
    fields.Gives IsTexts "negative" [] e.negative

def Replacement.SpelledBy (r : Replacement) (v : Json) : Prop :=
  ∃ fields : Fields, v = .object fields ∧ fields.Gives IsTexts "set_features" [] r.set ∧
    fields.Gives IsTexts "remove_features" [] r.remove

theorem Expression.check_pure (e : Expression) (v : Json) (spelled : e.SpelledBy v) :
    Expression.check v = pure e := by
  obtain ⟨fields, rfl, positive, negative⟩ := spelled
  have made : ofLists? e.positive e.negative = .ok e := dif_pos e.disjoint
  show checkFields fields = pure e
  rw [checkFields, defaulted_pure checkTexts_pure positive,
    defaulted_pure checkTexts_pure negative]
  simp [made]

theorem Replacement.check_pure (r : Replacement) (v : Json) (spelled : r.SpelledBy v) :
    Replacement.check v = pure r := by
  obtain ⟨fields, rfl, set, remove⟩ := spelled
  show checkFields fields = pure r
  rw [checkFields, defaulted_pure checkTexts_pure set, defaulted_pure checkTexts_pure remove]
  rfl

/-! ### Rules -/

namespace CharacterRule
variable {r : CharacterRule} {fields : Fields}

/-- Fields that spell a character rule. -/
structure SpelledBy (r : CharacterRule) (fields : Fields) : Prop where
  mode : fields.get? "mode" = some (.text Mode.character.text)
  id : fields.get? "rule_id" = some (.text r.id)
  description : fields.Gives IsText "description" [] r.description
  target : fields.Gives IsText "target" [] r.target
  replacement : fields.Gives IsText "replacement" [] r.replacement
  before : fields.Gives IsText "context_before" [] r.before
  after : fields.Gives IsText "context_after" [] r.after
  exceptions : fields.Gives IsTexts "exceptions" [] r.exceptions
  known : ∀ entry ∈ fields, entry.1 ∈ known

theorem SpelledBy.check (spelled : r.SpelledBy fields) : checkFields fields = pure r := by
  have mode : fields.defaulted "mode" () (Mode.check .character) = pure () := by
    rw [defaulted, spelled.mode]
    rfl
  have id : fields.required "rule_id" checkText = pure r.id := required_pure spelled.id rfl
  dsimp only [-String.reduceToList, checkFields]
  rw [mode, id, defaulted_pure checkText_pure spelled.description,
    defaulted_pure checkText_pure spelled.target, defaulted_pure checkText_pure spelled.replacement,
    defaulted_pure checkText_pure spelled.before, defaulted_pure checkText_pure spelled.after,
    defaulted_pure checkTexts_pure spelled.exceptions, only_pure spelled.known]
  rfl

end CharacterRule

namespace FeatureRule
variable {r : FeatureRule} {fields : Fields}

structure SpelledBy (r : FeatureRule) (fields : Fields) : Prop where
  mode : fields.get? "mode" = some (.text Mode.feature.text)
  id : fields.get? "rule_id" = some (.text r.id)
  description : fields.Gives IsText "description" [] r.description
  target : fields.Gives (Optionally Expression.SpelledBy) "target_features" none r.target
  replacement :
    fields.Gives (Optionally Replacement.SpelledBy) "replacement_features" none r.replacement
  before : fields.Gives (Optionally Expression.SpelledBy) "context_before_features" none r.before
  after : fields.Gives (Optionally Expression.SpelledBy) "context_after_features" none r.after
  exceptions : fields.Gives IsTexts "exceptions" [] r.exceptions
  known : ∀ entry ∈ fields, entry.1 ∈ known

theorem SpelledBy.check (spelled : r.SpelledBy fields) : checkFields fields = pure r := by
  have mode : fields.defaulted "mode" () (Mode.check .feature) = pure () := by
    rw [defaulted, spelled.mode]
    rfl
  have id : fields.required "rule_id" checkText = pure r.id := required_pure spelled.id rfl
  have expression (e : Option Expression) (v : Json)
      (known : Optionally Expression.SpelledBy e v) :
      checkOptional Expression.check v = pure e := checkOptional_pure Expression.check_pure known
  have shift (s : Option Replacement) (v : Json)
      (known : Optionally Replacement.SpelledBy s v) :
      checkOptional Replacement.check v = pure s := checkOptional_pure Replacement.check_pure known
  dsimp only [-String.reduceToList, checkFields]
  rw [mode, id, defaulted_pure checkText_pure spelled.description,
    defaulted_pure expression spelled.target, defaulted_pure shift spelled.replacement,
    defaulted_pure expression spelled.before, defaulted_pure expression spelled.after,
    defaulted_pure checkTexts_pure spelled.exceptions, only_pure spelled.known]
  rfl

end FeatureRule

namespace Rule

def mode : Rule → Mode
  | .character _ => .character
  | .feature _ => .feature

def SpelledBy : Rule → Fields → Prop
  | .character r => r.SpelledBy
  | .feature r => r.SpelledBy

theorem checkFields_pure {rule : Rule} {fields : Fields} (spelled : rule.SpelledBy fields) :
    checkFields fields = pure rule := by
  cases rule with
  | character r =>
    rw [checkFields, show fields.get? "mode" = _ from CharacterRule.SpelledBy.mode spelled]
    simp [CharacterRule.SpelledBy.check spelled]
  | feature r =>
    have other : Mode.feature.text ≠ Mode.character.text := by decide
    rw [checkFields, show fields.get? "mode" = _ from FeatureRule.SpelledBy.mode spelled]
    simp [other, FeatureRule.SpelledBy.check spelled]

end Rule
end SoundLaw
