import SoundLaw.Rule.Change

/-!
Rules, rule sets, configurations and results as JSON values, with every field and in a fixed order.
-/
namespace SoundLaw

def Expression.json (e : Expression) : Json :=
  .object [("positive", .texts e.positive), ("negative", .texts e.negative)]

def Replacement.json (r : Replacement) : Json :=
  .object [("set_features", .texts r.set), ("remove_features", .texts r.remove)]

def Json.optional {α : Type} (json : α → Json) : Option α → Json
  | some a => json a
  | none => .null

def CharacterRule.json (r : CharacterRule) : Json :=
  .object
    [("mode", .text Mode.character.text), ("rule_id", .text r.id),
     ("description", .text r.description), ("target", .text r.target),
     ("replacement", .text r.replacement), ("context_before", .text r.before),
     ("context_after", .text r.after), ("exceptions", .texts r.exceptions)]

def FeatureRule.json (r : FeatureRule) : Json :=
  .object
    [("mode", .text Mode.feature.text), ("rule_id", .text r.id),
     ("description", .text r.description),
     ("target_features", .optional Expression.json r.target),
     ("replacement_features", .optional Replacement.json r.replacement),
     ("context_before_features", .optional Expression.json r.before),
     ("context_after_features", .optional Expression.json r.after),
     ("exceptions", .texts r.exceptions)]

def Rule.json : Rule → Json
  | .character rule => rule.json
  | .feature rule => rule.json

def RuleSet.json (s : RuleSet) : Json :=
  .object
    [("ruleset_id", .text s.id), ("name", .text s.name), ("order", .int s.order),
     ("rules", .array (s.rules.map Rule.json))]

def Config.json (c : Config) : Json :=
  .object [("language_id", .text c.language), ("rule_sets", .array (c.ruleSets.map RuleSet.json))]

def Macros.json (macros : Macros) : Json := .object (macros.map fun m => (m.1, .texts m.2))

def Inventory.json (i : Inventory) : Json :=
  .object
    [("consonants", .texts i.consonants), ("vowels", .texts i.vowels), ("macros", i.macros.json)]

def Step.json (s : Step) : Json :=
  .object
    [("rule_id", .text s.rule), ("description", .text s.description), ("before", .text s.before),
     ("after", .text s.after), ("feature_detail", .optional .text s.detail)]

def Change.json (c : Change) : Json :=
  .object
    [("result", .text c.result), ("changelog", .array (c.steps.map Step.json)),
     ("warnings", .texts c.warnings)]

def BatchItem.json (b : BatchItem) : Json :=
  .object
    [("word", .text b.word), ("result", .text b.result),
     ("changelog", .array (b.steps.map Step.json))]

end SoundLaw
