import SoundLaw.Proofs.Rule.Schema
import SoundLaw.Proofs.Schema.Collecting

/-!
Records in a rule set and records alone. A set routes all its records before it checks any of them,
a record alone is routed and checked at once; yet both end alike. The first record that cannot be
routed ends the check of the set, and otherwise the set reports what its records report alone.
-/
namespace SoundLaw
open Checked Json Fields

/-! ### What checks of rules miss -/

theorem Mode.lacks_check (mode : Mode) (v : Json) : Lacks (mode.check v) [] := by
  unfold check
  split
  · split
    · exact lacks_pure ()
    · exact lacks_fail nofun
  · exact lacks_fail nofun

theorem Expression.lacks_check (v : Json) : Lacks (Expression.check v) [] := by
  refine lacks_checkRecord (fun fields => ?_) _ v
  have positive := fields.lacks_defaulted "positive" [] lacks_checkTexts
  have negative := fields.lacks_defaulted "negative" [] lacks_checkTexts
  refine (positive.both negative).bind fun lists => ?_
  split
  split
  · exact lacks_pure _
  · exact lacks_fail nofun

theorem Replacement.lacks_check (v : Json) : Lacks (Replacement.check v) [] := by
  refine lacks_checkRecord (fun fields => ?_) _ v
  have set := fields.lacks_defaulted "set_features" [] lacks_checkTexts
  have remove := fields.lacks_defaulted "remove_features" [] lacks_checkTexts
  exact (set.both remove).map _

/-- The places that a rule misses: its id is the only field that it may not leave out. -/
def Fields.missed (fields : Fields) : List (List Place) :=
  if fields.get? "rule_id" = none then [[.field "rule_id"]] else []

theorem CharacterRule.lacks_checkFields (fields : Fields) :
    Lacks (CharacterRule.checkFields fields) fields.missed := by
  have text (name : Text) := fields.lacks_defaulted name [] lacks_checkText
  have mode := fields.lacks_defaulted "mode" () (Mode.lacks_check .character)
  have id := fields.lacks_required "rule_id" lacks_checkText
  have exceptions := fields.lacks_defaulted "exceptions" [] lacks_checkTexts
  have whole := (mode.both (id.both (text "description"))).both
    (((text "target").both (text "replacement")).both
      (((text "context_before").both (text "context_after")).both
        (exceptions.both (fields.lacks_only known))))
  simp only [-String.reduceToList, List.nil_append, List.append_nil] at whole
  exact whole.map _

theorem FeatureRule.lacks_checkFields (fields : Fields) :
    Lacks (FeatureRule.checkFields fields) fields.missed := by
  have expression (name : Text) :=
    fields.lacks_defaulted name none (lacks_checkOptional Expression.lacks_check)
  have mode := fields.lacks_defaulted "mode" () (Mode.lacks_check .feature)
  have id := fields.lacks_required "rule_id" lacks_checkText
  have description := fields.lacks_defaulted "description" [] lacks_checkText
  have replacement := fields.lacks_defaulted "replacement_features" none
    (lacks_checkOptional Replacement.lacks_check)
  have exceptions := fields.lacks_defaulted "exceptions" [] lacks_checkTexts
  have whole := (mode.both (id.both description)).both
    (((expression "target_features").both replacement).both
      (((expression "context_before_features").both (expression "context_after_features")).both
        (exceptions.both (fields.lacks_only known))))
  simp only [-String.reduceToList, List.nil_append, List.append_nil] at whole
  exact whole.map _

theorem Rule.lacks_checkFields {fields : Fields} {mode : Mode}
    (moded : fields.get? "mode" = some (.text mode.text)) :
    Lacks (Rule.checkFields fields) (fields.missed.map (.field mode.text :: ·)) := by
  cases mode with
  | character =>
    have checked : checkFields fields = .character <$> inside (.field Mode.character.text)
        (CharacterRule.checkFields fields) := by
      rw [checkFields, moded]
      exact if_pos rfl
    rw [checked]
    exact ((CharacterRule.lacks_checkFields fields).inside _).map _
  | feature =>
    have checked : checkFields fields = .feature <$> inside (.field Mode.feature.text)
        (FeatureRule.checkFields fields) := by
      rw [checkFields, moded]
      exact (if_neg (by decide)).trans (if_pos rfl)
    rw [checked]
    exact ((FeatureRule.lacks_checkFields fields).inside _).map _

theorem Rule.collects_checkFields (fields : Fields) : Collects (Rule.checkFields fields) := by
  unfold checkFields
  split
  · split
    · simp [(CharacterRule.lacks_checkFields fields).collects]
    · split <;> simp [(FeatureRule.lacks_checkFields fields).collects]
  · simp
  · simp

/-! ### Records alone -/

namespace Fields
variable {name : Text} {fields record : Fields}

def raised? (record : Fields) : Option Problem :=
  match record.routed.outcome with
  | .error problem => some problem
  | .ok _ => none

theorem raised?_eq_some {problem : Problem} :
    record.raised? = some problem ↔ record.routed.outcome = .error problem := by
  unfold raised?
  cases record.routed.outcome <;> simp

theorem raised?_eq_none : record.raised? = none ↔ ∃ fields, record.routed.outcome = .ok fields := by
  unfold raised?
  cases record.routed.outcome <;> simp

theorem get?_put (name : Text) (value : Json) (fields : Fields) :
    (fields.put name value).get? name = some value := by
  induction fields with
  | nil => simp [put, get?]
  | cons entry rest ih =>
    obtain ⟨key, old⟩ := entry
    by_cases same : key = name <;> simp [put, get?, same, ih]

theorem get?_put_other {other : Text} (apart : other ≠ name) (value : Json) (fields : Fields) :
    (fields.put name value).get? other = fields.get? other := by
  induction fields with
  | nil => simp [put, get?, Ne.symm apart]
  | cons entry rest ih =>
    obtain ⟨key, old⟩ := entry
    by_cases same : key = name
    · simp [put, get?, same, Ne.symm apart]
    · simp [put, get?, same, ih]

theorem required_put {α : Type} {check : Json → Checked α} {other : Text} (apart : other ≠ name)
    (value : Json) :
    (fields.put name value).required other check = fields.required other check := by
  rw [required, required, get?_put_other apart]

theorem defaulted_put {α : Type} {check : Json → Checked α} {default : α} {other : Text}
    (apart : other ≠ name) (value : Json) :
    (fields.put name value).defaulted other default check =
      fields.defaulted other default check := by
  rw [defaulted, defaulted, get?_put_other apart]

theorem defaulted_put_same {α : Type} {check : Json → Checked α} {default : α} (value : Json) :
    (fields.put name value).defaulted name default check = inside (.field name) (check value) := by
  rw [defaulted, get?_put]

end Fields

namespace Rule
variable {record fields : Fields} {rule : Rule}

/-- A record alone is read as a rule. -/
def Accepts (record : Fields) (rule : Rule) : Prop := (Rule.parse record).outcome = .ok rule

/-- The issues that a record alone reports; one that is accepted reports none. -/
def Reports (record : Fields) (l : List Issue) : Prop :=
  (∃ rule, Accepts record rule) ∧ l = [] ∨ (Rule.parse record).outcome = .error (.issues l)

theorem parse_routed (routed : record.routed.outcome = .ok fields) :
    (Rule.parse record).outcome = (Rule.checkFields fields).outcome := by
  rw [parse, Journal.outcome_bind]
  show (record.routed.outcome.mapError _).bind _ = _
  rw [routed]
  rfl

theorem parse_raised {problem : Problem} (raised : record.routed.outcome = .error problem) :
    (Rule.parse record).outcome = .error (.problem problem) := by
  rw [parse, Journal.outcome_bind]
  show (record.routed.outcome.mapError _).bind _ = _
  rw [raised]
  rfl

theorem collects_parse (free : record.raised? = none) : Collects (Rule.parse record) := by
  obtain ⟨fields, routed⟩ := raised?_eq_none.mp free
  intro p
  rw [parse_routed routed]
  exact collects_checkFields fields p

theorem parse_problem_iff {problem : Problem} :
    (Rule.parse record).outcome = .error (.problem problem) ↔
      record.routed.outcome = .error problem := by
  constructor
  · intro refused
    cases raised : record.raised? with
    | none => exact absurd refused (collects_parse raised problem)
    | some first =>
      have own := raised?_eq_some.mp raised
      rw [parse_raised own] at refused
      cases refused
      exact own
  · exact parse_raised

theorem reports_issues (free : record.raised? = none) :
    Reports record (Rule.parse record).issues := by
  rcases (collects_parse free).passes_or with ⟨rule, accepted⟩ | refused
  · exact Or.inl ⟨⟨rule, accepted⟩, issues_ok accepted⟩
  · exact Or.inr refused

end Rule

/-! ### Records in a set -/

namespace RuleSet
variable {records : List Fields}

/-- The check of a record where it stands: it is routed and checked at once. -/
def checkAlone : Json → Checked Rule := checkRecord "SCARule" Rule.parse

theorem route_raised {problem : Problem} (first : records.findSome? raised? = some problem) :
    (route (records.map .object)).outcome = .error problem := by
  induction records with
  | nil => cases first
  | cons record rest ih =>
    rw [List.map_cons, route, Journal.outcome_bind]
    cases routed : record.routed.outcome with
    | error own =>
      rw [List.findSome?_cons, raised?_eq_some.mpr routed] at first
      cases first
      rfl
    | ok fields =>
      rw [List.findSome?_cons, raised?_eq_none.mpr ⟨fields, routed⟩] at first
      simp only [Except.bind, Journal.outcome_bind, ih first]

/-- The check of the routed records from place `i` on is that of the records alone. -/
theorem route_free (free : ∀ record ∈ records, record.raised? = none) :
    ∃ items, (route (records.map .object)).outcome = .ok items ∧
      ∀ i, (eachFrom Rule.check i items).outcome =
        (eachFrom checkAlone i (records.map .object)).outcome := by
  induction records with
  | nil => exact ⟨[], rfl, fun i => rfl⟩
  | cons record rest ih =>
    rw [List.forall_mem_cons] at free
    obtain ⟨fields, routed⟩ := raised?_eq_none.mp free.1
    obtain ⟨items, later, alike⟩ := ih free.2
    refine ⟨.object fields :: items, ?_, fun i => ?_⟩
    · rw [List.map_cons, route, Journal.outcome_bind, routed]
      simp only [Except.bind, Journal.outcome_bind, later]
      rfl
    · have own : (inside (.item i) (Rule.check (.object fields))).outcome =
          (inside (.item i) (checkAlone (.object record))).outcome :=
        congrArg (Except.mapError _) (Rule.parse_routed routed).symm
      rw [eachFrom, List.map_cons, eachFrom, Journal.outcome_map, Journal.outcome_map, outcome_both,
        outcome_both, own, alike]

theorem checkRules_raised {problem : Problem} (first : records.findSome? raised? = some problem) :
    (checkRules (.array (records.map .object))).outcome = .error (.problem problem) := by
  rw [checkRules, Journal.outcome_bind]
  show ((route _).outcome.mapError _).bind _ = _
  rw [route_raised first]
  rfl

theorem checkRules_free (free : ∀ record ∈ records, record.raised? = none) :
    (checkRules (.array (records.map .object))).outcome =
      (eachFrom checkAlone 0 (records.map .object)).outcome := by
  obtain ⟨items, routed, alike⟩ := route_free free
  rw [checkRules, Journal.outcome_bind, ← alike 0]
  show ((route _).outcome.mapError _).bind _ = _
  rw [routed]
  rfl

theorem check_put {fields : Fields} {set : RuleSet} {value : Json}
    (valid : (RuleSet.check (.object (fields.put "rules" (.array [])))).outcome = .ok set) :
    (RuleSet.check (.object (fields.put "rules" value))).outcome =
      (inside (.field "rules") (checkRules value)).outcome.map fun rules =>
        { set with rules := rules } := by
  have parts (v : Json) : RuleSet.check (.object (fields.put "rules" v)) =
      (fun parts => ⟨parts.1.1, parts.1.2, parts.2.1, parts.2.2⟩) <$>
        and3 (both (fields.required "ruleset_id" checkText) (fields.defaulted "name" [] checkText))
          (fields.defaulted "order" 0 checkWhole) (inside (.field "rules") (checkRules v)) := by
    show RuleSet.checkFields _ = _
    rw [checkFields, required_put (by decide), defaulted_put (by decide),
      defaulted_put (by decide), defaulted_put_same]
  rw [parts, Journal.outcome_map] at valid ⊢
  cases ended : (and3 (both (fields.required "ruleset_id" checkText)
      (fields.defaulted "name" [] checkText)) (fields.defaulted "order" 0 checkWhole)
      (inside (.field "rules") (checkRules (.array [])))).outcome with
  | error refusal => rw [ended] at valid; cases valid
  | ok values =>
    obtain ⟨names, order, rules⟩ := values
    rw [ended] at valid
    cases valid
    obtain ⟨first, later⟩ := both_eq_ok.mp ended
    obtain ⟨second, _⟩ := both_eq_ok.mp later
    rw [and3, both_ok first, both_ok second]
    cases (inside (.field "rules") (checkRules value)).outcome <;> rfl

def placed (reports : List (List Issue)) : List Issue :=
  reports.zipIdx.flatMap fun report =>
    report.1.map fun issue => (issue.inside (.item report.2)).inside (.field "rules")

theorem checkAlone_eq_ok {rules : List Rule} {i : Nat} :
    (eachFrom checkAlone i (records.map .object)).outcome = .ok rules ↔
      List.Forall₂ Rule.Accepts records rules := by
  rw [eachFrom_eq_ok, List.forall₂_map_left_iff]
  rfl

theorem all_accepted_iff :
    (∃ rules, List.Forall₂ Rule.Accepts records rules) ↔
      ∀ record ∈ records, ∃ rule, Rule.Accepts record rule := by
  induction records with
  | nil => simp
  | cons record rest ih =>
    rw [List.forall_mem_cons, ← ih]
    constructor
    · rintro ⟨rules, accepted⟩
      cases accepted with
      | cons first others => exact ⟨⟨_, first⟩, _, others⟩
    · rintro ⟨⟨rule, first⟩, rules, others⟩
      exact ⟨rule :: rules, .cons first others⟩

theorem collects_alone (free : ∀ record ∈ records, record.raised? = none) :
    ∀ item ∈ records.map Json.object, Collects (checkAlone item) := by
  intro item member
  obtain ⟨record, listed, rfl⟩ := List.mem_map.mp member
  exact Rule.collects_parse (free record listed)

theorem issues_checkAlone (free : ∀ record ∈ records, record.raised? = none) :
    (eachFrom checkAlone 0 (records.map .object)).issues.map (Issue.inside (.field "rules")) =
      placed (records.map fun record => (Rule.parse record).issues) := by
  rw [issues_eachFrom (collects_alone free), placed, List.zipIdx_map, List.zipIdx_map,
    List.map_flatMap, List.flatMap_map, List.flatMap_map]
  refine congrArg (List.flatMap · _) (funext fun item => ?_)
  simp [checkAlone, checkRecord, Prod.map]

/-- In a set that is valid but for its rules, the first record that cannot be routed ends the check
with its problem. Where all can be routed, the set holds the rules that its records are read as, in
order, if each of them is accepted alone; otherwise it reports what its records report alone, each
at its place. -/
theorem check_tells_records (fields : Fields) (set : RuleSet) (records : List Fields)
    (valid : (RuleSet.check (.object (fields.put "rules" (.array [])))).outcome = .ok set) :
    let outcome :=
      (RuleSet.check (.object (fields.put "rules" (.array (records.map .object))))).outcome
    (∀ problem, records.findSome? raised? = some problem →
      outcome = .error (.problem problem) ∧
        ∃ record ∈ records, (Rule.parse record).outcome = .error (.problem problem)) ∧
    (records.findSome? raised? = none →
      ((∃ s, outcome = .ok s) ↔ ∀ record ∈ records, ∃ rule, Rule.Accepts record rule) ∧
      (∀ s, outcome = .ok s →
        List.Forall₂ Rule.Accepts records s.rules ∧ s = { set with rules := s.rules }) ∧
      ∀ refusal, outcome = .error refusal → ∃ reports,
        List.Forall₂ Rule.Reports records reports ∧ refusal = .issues (placed reports)) := by
  intro outcome
  have whole : outcome = ((checkRules (.array (records.map .object))).outcome.mapError
      (Refusal.inside (.field "rules"))).map fun rules => { set with rules := rules } :=
    check_put valid
  refine ⟨fun problem first => ⟨?_, ?_⟩, fun none => ?_⟩
  · rw [whole, checkRules_raised first]
    rfl
  · obtain ⟨record, member, raised⟩ := List.exists_of_findSome?_eq_some first
    exact ⟨record, member, Rule.parse_raised (raised?_eq_some.mp raised)⟩
  · have free : ∀ record ∈ records, record.raised? = Option.none :=
      List.findSome?_eq_none_iff.mp none
    have accepts (rules : List Rule) := @checkAlone_eq_ok records rules 0
    rw [← all_accepted_iff]
    simp only [← accepts]
    rw [checkRules_free free] at whole
    rcases (collects_eachFrom (collects_alone free) 0).passes_or with ⟨rules, passes⟩ | refused
    · rw [passes] at whole
      rw [passes, whole]
      refine ⟨⟨fun _ => ⟨rules, rfl⟩, fun _ => ⟨_, rfl⟩⟩, ?_, ?_⟩
      · rintro s ⟨⟩
        exact ⟨rfl, rfl⟩
      · rintro refusal ⟨⟩
    · rw [refused] at whole
      rw [refused, whole]
      refine ⟨⟨?_, ?_⟩, ?_, ?_⟩
      · rintro ⟨s, ⟨⟩⟩
      · rintro ⟨rules, ⟨⟩⟩
      · rintro s ⟨⟩
      · rintro refusal ⟨⟩
        refine ⟨records.map fun record => (Rule.parse record).issues, ?_, ?_⟩
        · rw [List.forall₂_map_right_iff, List.forall₂_same]
          exact fun record member => Rule.reports_issues (free record member)
        · rw [← issues_checkAlone free]
          rfl

def drafted : List Fields :=
  [[("mode", .text "vowel")], [("rule_id", .text "r"), ("target", .int 1)]]

theorem check_tells_records_drafted :
    let named : Fields := [("ruleset_id", .text "s")]
    (RuleSet.check (.object (named.put "rules" (.array [])))).outcome =
        .ok ⟨['s'], [], 0, []⟩ ∧
      (∃ reports, List.Forall₂ Rule.Reports drafted reports ∧
        placed reports = [⟨[.field "rules", .item 0], .unknownMode "vowel"⟩,
          ⟨[.field "rules", .item 1, .field "character", .field "target"], .notText⟩]) ∧
      (RuleSet.check (.object (named.put "rules"
          (.array ((drafted ++ [[]]).map .object))))).outcome =
        .error (.problem (.invalidRule "<unnamed>" "rule_id is required")) := by
  intro named
  have valid : (RuleSet.check (.object (named.put "rules" (.array [])))).outcome =
      .ok ⟨['s'], [], 0, []⟩ := rfl
  have refused : (RuleSet.check (.object (named.put "rules"
      (.array (drafted.map .object))))).outcome =
      .error (.issues [⟨[.field "rules", .item 0], .unknownMode "vowel"⟩,
        ⟨[.field "rules", .item 1, .field "character", .field "target"], .notText⟩]) := rfl
  obtain ⟨_, _, tells⟩ := (check_tells_records named _ drafted valid).2 rfl
  obtain ⟨reports, alone, same⟩ := tells _ refused
  obtain ⟨ended, _⟩ := (check_tells_records named _ (drafted ++ [[]]) valid).1 _ rfl
  exact ⟨valid, ⟨reports, alone, (Refusal.issues.inj same).symm⟩, ended⟩

end RuleSet
end SoundLaw
