import SoundLaw.Rule.Record
import SoundLaw.Rule.Change
import SoundLaw.Schema.Check

/-!
Rules, rule sets, configurations and inventories read out of JSON values. A rule is checked by
the mode that its record names; the records of a rule set are routed before any of them is checked.
-/
namespace SoundLaw
open Checked

def Checked.and3 {α β γ : Type} (a : Checked α) (b : Checked β) (c : Checked γ) :
    Checked (α × β × γ) := both a (both b c)

namespace Expression

def checkFields (fields : Fields) : Checked Expression := do
  let (positive, negative) ← both
    (fields.defaulted "positive" [] Json.checkTexts) (fields.defaulted "negative" [] Json.checkTexts)
  match ofLists? positive negative with
  | .ok e => pure e
  | .error features => fail (.contradiction features)

def check : Json → Checked Expression := Json.checkRecord "FeatureExpression" checkFields

end Expression

namespace Replacement

def checkFields (fields : Fields) : Checked Replacement :=
  (fun (set, remove) => ⟨set, remove⟩) <$> both
    (fields.defaulted "set_features" [] Json.checkTexts)
    (fields.defaulted "remove_features" [] Json.checkTexts)

def check : Json → Checked Replacement := Json.checkRecord "FeatureReplacement" checkFields

end Replacement

def Mode.check (expected : Mode) : Json → Checked Unit
  | .text t => if t = expected.text then pure () else fail (.notMode expected)
  | _ => fail (.notMode expected)

namespace CharacterRule

def known : List Text := "mode".toList :: sharedFields ++ Mode.character.fields

def checkFields (fields : Fields) : Checked CharacterRule :=
  let text (name : Text) : Checked Text := fields.defaulted name [] Json.checkText
  (fun ((_, id, description), (target, replacement), (before, after), exceptions, _) =>
      ⟨id, description, target, replacement, before, after, exceptions⟩) <$>
    both (and3 (fields.defaulted "mode" () (Mode.check .character))
        (fields.required "rule_id" Json.checkText) (text "description"))
      (both (both (text "target") (text "replacement"))
        (and3 (both (text "context_before") (text "context_after"))
          (fields.defaulted "exceptions" [] Json.checkTexts) (fields.only known)))

def check : Json → Checked CharacterRule := Json.checkRecord "CharacterRule" checkFields

end CharacterRule

namespace FeatureRule

def known : List Text := "mode".toList :: sharedFields ++ Mode.feature.fields

def checkFields (fields : Fields) : Checked FeatureRule :=
  let expression (name : Text) : Checked (Option Expression) :=
    fields.defaulted name none (Json.checkOptional Expression.check)
  (fun ((_, id, description), (target, replacement), (before, after), exceptions, _) =>
      ⟨id, description, target, replacement, before, after, exceptions⟩) <$>
    both (and3 (fields.defaulted "mode" () (Mode.check .feature))
        (fields.required "rule_id" Json.checkText)
        (fields.defaulted "description" [] Json.checkText))
      (both (both (expression "target_features")
          (fields.defaulted "replacement_features" none (Json.checkOptional Replacement.check)))
        (and3 (both (expression "context_before_features") (expression "context_after_features"))
          (fields.defaulted "exceptions" [] Json.checkTexts) (fields.only known)))

def check : Json → Checked FeatureRule := Json.checkRecord "FeatureRule" checkFields

end FeatureRule

namespace Rule

def checkFields (fields : Fields) : Checked Rule :=
  match fields.get? "mode" with
  | some (.text t) =>
    if t = Mode.character.text then
      .character <$> inside (.field Mode.character.text) (CharacterRule.checkFields fields)
    else if t = Mode.feature.text then
      .feature <$> inside (.field Mode.feature.text) (FeatureRule.checkFields fields)
    else fail (.unknownMode t)
  | some value => fail (.unknownMode value.shown)
  | none => fail .missing

def check : Json → Checked Rule
  | .object fields => checkFields fields
  | _ => fail .notFields

def parse (record : Fields) : Checked Rule := do
  let fields ← (Fields.routed record).mapError .problem
  checkFields fields

end Rule

namespace RuleSet

/-- Routes the records among the items; other items stay for the check to refuse. -/
def route : List Json → Journal Problem (List Json)
  | [] => pure []
  | .object record :: rest => do
    let fields ← Fields.routed record
    let more ← route rest
    pure (.object fields :: more)
  | item :: rest => do
    let more ← route rest
    pure (item :: more)

/-- Routes all records, then checks all rules. -/
def checkRules : Json → Checked (List Rule)
  | .array items => do
    let routed ← (route items).mapError .problem
    eachFrom Rule.check 0 routed
  | _ => fail .notList

def checkFields (fields : Fields) : Checked RuleSet :=
  (fun ((id, name), order, rules) => ⟨id, name, order, rules⟩) <$>
    and3 (both (fields.required "ruleset_id" Json.checkText)
        (fields.defaulted "name" [] Json.checkText))
      (fields.defaulted "order" 0 Json.checkWhole) (fields.defaulted "rules" [] checkRules)

def check : Json → Checked RuleSet := Json.checkRecord "SCARuleSet" checkFields

end RuleSet

namespace Config

def checkFields (fields : Fields) : Checked Config :=
  (fun (language, ruleSets) => ⟨language, ruleSets⟩) <$> both
    (fields.defaulted "language_id" [] Json.checkText)
    (fields.defaulted "rule_sets" [] (Json.checkList RuleSet.check))

def check : Json → Checked Config := Json.checkRecord "SCAConfig" checkFields

end Config

namespace Inventory

def checkFields (fields : Fields) : Checked Inventory :=
  (fun (consonants, vowels, macros) => ⟨consonants, vowels, macros⟩) <$> and3
    (fields.defaulted "consonants" [] Json.checkTexts)
    (fields.defaulted "vowels" [] Json.checkTexts)
    (fields.defaulted "macros" [] (Json.checkTable Json.checkTexts))

def check : Json → Checked Inventory := Json.checkRecord "PhonemeInventory" checkFields

end Inventory

namespace Step

def checkFields (fields : Fields) : Checked Step :=
  (fun ((rule, description), (before, after), detail) =>
      ⟨rule, description, before, after, detail⟩) <$> and3
    (both (fields.required "rule_id" Json.checkText) (fields.required "description" Json.checkText))
    (both (fields.required "before" Json.checkText) (fields.required "after" Json.checkText))
    (fields.defaulted "feature_detail" none (Json.checkOptional Json.checkText))

def check : Json → Checked Step := Json.checkRecord "StepLogEntry" checkFields

end Step

namespace Change

def checkFields (fields : Fields) : Checked Change :=
  (fun (result, steps, warnings) => ⟨result, steps, warnings⟩) <$> and3
    (fields.required "result" Json.checkText)
    (fields.defaulted "changelog" [] (Json.checkList Step.check))
    (fields.defaulted "warnings" [] Json.checkTexts)

def check : Json → Checked Change := Json.checkRecord "SoundChangeResult" checkFields

end Change

namespace BatchItem

def checkFields (fields : Fields) : Checked BatchItem :=
  (fun (word, result, steps) => ⟨word, result, steps⟩) <$> and3
    (fields.required "word" Json.checkText) (fields.required "result" Json.checkText)
    (fields.defaulted "changelog" [] (Json.checkList Step.check))

def check : Json → Checked BatchItem := Json.checkRecord "BatchResult" checkFields

end BatchItem
end SoundLaw
