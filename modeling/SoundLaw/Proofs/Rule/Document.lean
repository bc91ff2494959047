import SoundLaw.Rule.Document
import SoundLaw.Proofs.Rule.Schema
import SoundLaw.Proofs.Json.Indented

/-!
Configurations as JSON values: the value of a configuration passes the check and gives the
configuration itself, and its text gives back the value, as long as the orders are whole numbers
that the reader keeps.
-/
namespace SoundLaw
open Json

/-! ### The check of a written rule -/

theorem Expression.spelledBy_json (e : Expression) : e.SpelledBy e.json :=
  ⟨_, rfl, Or.inl ⟨_, rfl, rfl⟩, Or.inl ⟨_, rfl, rfl⟩⟩

theorem Replacement.spelledBy_json (r : Replacement) : r.SpelledBy r.json :=
  ⟨_, rfl, Or.inl ⟨_, rfl, rfl⟩, Or.inl ⟨_, rfl, rfl⟩⟩

theorem optionally_expression (e : Option Expression) :
    Optionally Expression.SpelledBy e (.optional Expression.json e) := by
  cases e with
  | none => rfl
  | some e => exact ⟨nofun, e.spelledBy_json⟩

theorem optionally_replacement (r : Option Replacement) :
    Optionally Replacement.SpelledBy r (.optional Replacement.json r) := by
  cases r with
  | none => rfl
  | some r => exact ⟨nofun, r.spelledBy_json⟩

def Mode.writtenNames (mode : Mode) : List Text :=
  "mode".toList :: "rule_id".toList :: "description".toList :: mode.fields ++ ["exceptions".toList]

theorem known_of_names {fields : Fields} {names known : List Text}
    (listed : fields.map Prod.fst = names) (all : ∀ name ∈ names, name ∈ known) :
    ∀ entry ∈ fields, entry.1 ∈ known := by
  intro entry member
  exact all entry.1 (listed ▸ List.mem_map.mpr ⟨entry, member, rfl⟩)

theorem CharacterRule.json_spells (r : CharacterRule) :
    ∃ fields : Fields, r.json = .object fields ∧ r.SpelledBy fields :=
  ⟨_, rfl,
    { mode := rfl
      id := rfl
      description := Or.inl ⟨_, rfl, rfl⟩
      target := Or.inl ⟨_, rfl, rfl⟩
      replacement := Or.inl ⟨_, rfl, rfl⟩
      before := Or.inl ⟨_, rfl, rfl⟩
      after := Or.inl ⟨_, rfl, rfl⟩
      exceptions := Or.inl ⟨_, rfl, rfl⟩
      known :=
        known_of_names (show _ = Mode.character.writtenNames from rfl) (by decide) }⟩

theorem FeatureRule.json_spells (r : FeatureRule) :
    ∃ fields : Fields, r.json = .object fields ∧ r.SpelledBy fields :=
  ⟨_, rfl,
    { mode := rfl
      id := rfl
      description := Or.inl ⟨_, rfl, rfl⟩
      target := Or.inl ⟨_, rfl, optionally_expression r.target⟩
      replacement := Or.inl ⟨_, rfl, optionally_replacement r.replacement⟩
      before := Or.inl ⟨_, rfl, optionally_expression r.before⟩
      after := Or.inl ⟨_, rfl, optionally_expression r.after⟩
      exceptions := Or.inl ⟨_, rfl, rfl⟩
      known :=
        known_of_names (show _ = Mode.feature.writtenNames from rfl) (by decide) }⟩

theorem Rule.json_spells (rule : Rule) :
    ∃ fields : Fields, rule.json = .object fields ∧ rule.SpelledBy fields := by
  cases rule with
  | character r => exact r.json_spells
  | feature r => exact r.json_spells

theorem Rule.SpelledBy.moded {rule : Rule} {fields : Fields} (spelled : rule.SpelledBy fields) :
    fields.get? "mode" = some (.text rule.mode.text) := by
  cases rule with
  | character r => exact CharacterRule.SpelledBy.mode spelled
  | feature r => exact FeatureRule.SpelledBy.mode spelled

/-! ### The check of a written configuration -/

theorem Rule.check_json (rule : Rule) : Rule.check rule.json = pure rule := by
  obtain ⟨fields, json, spelled⟩ := rule.json_spells
  rw [json]
  exact checkFields_pure spelled

theorem RuleSet.route_json (rules : List Rule) :
    route (rules.map Rule.json) = pure (rules.map Rule.json) := by
  induction rules with
  | nil => rfl
  | cons rule rest ih =>
    obtain ⟨fields, json, spelled⟩ := rule.json_spells
    have holds : fields.holds "mode" = true := by
      rw [Fields.holds, spelled.moded]
      rfl
    have routed : fields.routed = pure fields := by
      rw [Fields.routed, if_pos holds]
    rw [List.map_cons, json, route, routed, ih]
    rfl

theorem RuleSet.checkRules_json (rules : List Rule) :
    checkRules (.array (rules.map Rule.json)) = pure rules := by
  rw [checkRules, route_json]
  exact Checked.eachFrom_pure (fun rule _ => rule.check_json) 0

theorem RuleSet.check_json (s : RuleSet) : RuleSet.check s.json = pure s := by
  have rules : Fields.defaulted "rules" [] checkRules
      [("ruleset_id", .text s.id), ("name", .text s.name), ("order", .int s.order),
        ("rules", .array (s.rules.map Rule.json))] = pure s.rules := by
    show Checked.inside _ (checkRules _) = _
    rw [checkRules_json, Checked.inside_pure]
  show checkFields _ = _
  rw [checkFields, rules]
  rfl

theorem Config.check_json (c : Config) : Config.check c.json = pure c := by
  have sets : Fields.defaulted "rule_sets" [] (checkList RuleSet.check)
      [("language_id", .text c.language), ("rule_sets", .array (c.ruleSets.map RuleSet.json))] =
        pure c.ruleSets := by
    show Checked.inside _ (Checked.eachFrom RuleSet.check 0 _) = _
    rw [Checked.eachFrom_pure (fun s _ => s.check_json) 0, Checked.inside_pure]
  show checkFields _ = _
  rw [checkFields, sets]
  rfl

/-! ### The text of a configuration -/

section
variable {limits : Limits}

theorem Json.plain_texts (depth : Nat) (l : List Text) : Plain limits (depth + 1) (.texts l) := by
  refine .array _ fun item member => ?_
  obtain ⟨t, _, rfl⟩ := List.mem_map.mp member
  exact .text t

theorem Json.plain_optional {α : Type} {json : α → Json} {depth : Nat}
    (plain : ∀ a, Plain limits depth (json a)) (a : Option α) :
    Plain limits depth (.optional json a) := by
  cases a with
  | none => exact .null
  | some a => exact plain a

theorem Expression.plain_json (depth : Nat) (e : Expression) :
    Plain limits (depth + 2) e.json :=
  .object _ (by simp) (by simp [plain_texts])

theorem Replacement.plain_json (depth : Nat) (r : Replacement) :
    Plain limits (depth + 2) r.json :=
  .object _ (by simp) (by simp [plain_texts])

theorem CharacterRule.plain_json (depth : Nat) (r : CharacterRule) :
    Plain limits (depth + 2) r.json :=
  .object _ (by simp) (by simp [Plain.text, plain_texts])

theorem FeatureRule.plain_json (depth : Nat) (r : FeatureRule) :
    Plain limits (depth + 3) r.json :=
  .object _ (by simp) (by
    simp [Plain.text, plain_texts, plain_optional (Expression.plain_json depth),
      plain_optional (Replacement.plain_json depth)])

theorem Rule.plain_json (depth : Nat) (rule : Rule) : Plain limits (depth + 3) rule.json := by
  cases rule with
  | character r => exact r.plain_json (depth + 1)
  | feature r => exact r.plain_json depth

theorem RuleSet.plain_json (depth : Nat) (s : RuleSet) (kept : limits.keepsInt s.order = true) :
    Plain limits (depth + 5) s.json := by
  have rules : Plain limits (depth + 4) (.array (s.rules.map Rule.json)) := by
    refine .array _ fun item member => ?_
    obtain ⟨rule, _, rfl⟩ := List.mem_map.mp member
    exact rule.plain_json depth
  exact .object _ (by simp) (by simp [Plain.text, Plain.int, kept, rules])

theorem Config.plain_json (depth : Nat) (c : Config)
    (kept : ∀ s ∈ c.ruleSets, limits.keepsInt s.order = true) :
    Plain limits (depth + 7) c.json := by
  have sets : Plain limits (depth + 6) (.array (c.ruleSets.map RuleSet.json)) := by
    refine .array _ fun item member => ?_
    obtain ⟨s, listed, rfl⟩ := List.mem_map.mp member
    exact s.plain_json depth (kept s listed)
  exact .object _ (by simp) (by simp [Plain.text, sets])

end

end SoundLaw
