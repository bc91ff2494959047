import SoundLaw.Rule.Run
import SoundLaw.Proofs.Rule.Pair
import SoundLaw.Proofs.Rule.Tokens
import SoundLaw.Proofs.Sorting

/-!
Runs as traces. Each rule visits the word that the rules before it made. The steps of a run are
the visits that changed the word, and they lead from the word to the result without a gap, because
a rule that reports no change returns the word it was given.
-/
namespace SoundLaw
variable {s : Setting} {word : Text} {rule : Rule} {o : Outcome}

/-! ### One rule -/

namespace Rule

def outcome (s : Setting) (word : Text) (rule : Rule) : Except RunFault Outcome :=
  (rule.apply s.model s.macros s.inventory word).outcome

def result (s : Setting) (word : Text) (rule : Rule) : Except RunFault Text :=
  (rule.outcome s word).map Outcome.result

theorem outcome_unchanged (applied : rule.outcome s word = .ok o) (unchanged : o.changed = false) :
    o.result = word := by
  cases rule with
  | character r =>
    exact ((CharacterRule.applyPairs_unchanged r.pairs applied).2 unchanged).2
  | feature r =>
    cases applied
    have same : r.tokensAfter s.model s.inventory word =
        FeatureRule.tokensBefore s.model s.inventory word := by
      by_contra altered
      have changed := (FeatureRule.apply_changed_iff r s.model s.inventory word).mpr altered
      rw [unchanged] at changed
      cases changed
    rw [FeatureRule.apply_result, same, FeatureRule.spell_tokensBefore]

theorem outcome_detail (applied : rule.outcome s word = .ok o) (changed : o.changed = true) :
    joinDetails o.details = none ↔ ∃ r, rule = .character r := by
  cases rule with
  | character r =>
    have none : o.details = [] := (CharacterRule.applyPairs_unchanged r.pairs applied).1
    simp [joinDetails, none]
  | feature r =>
    cases applied
    rw [FeatureRule.apply_details, Bool.not_eq_true'] at changed
    simp [joinDetails, changed]

end Rule

/-! ### The visits of a run -/

/-- A rule at the word that reached it. -/
structure Visit where
  rule : Rule
  word : Text
  outcome : Outcome

def Visit.step (v : Visit) : Step :=
  ⟨v.rule.id, v.rule.describe, v.word, v.outcome.result, joinDetails v.outcome.details⟩

/-- Rules one after the other, each at the result of the one before. -/
def visits (s : Setting) : List Rule → Text → Except RunFault (List Visit)
  | [], _ => .ok []
  | rule :: rest, word => do
    let o ← rule.outcome s word
    let more ← visits s rest o.result
    return ⟨rule, word, o⟩ :: more

def stepsOf (vs : List Visit) : List Step := (vs.filter (·.outcome.changed)).map Visit.step

def lastResult (word : Text) (vs : List Visit) : Text := vs.foldl (fun _ v => v.outcome.result) word

/-- Steps from one word to another, each from where the one before ended. -/
def Chain : Text → List Step → Text → Prop
  | word, [], result => result = word
  | word, step :: rest, result => step.before = word ∧ Chain step.after rest result

theorem visits_cons {rest : List Rule} {vs : List Visit}
    (visited : visits s (rule :: rest) word = .ok vs) :
    ∃ o more, rule.outcome s word = .ok o ∧ visits s rest o.result = .ok more ∧
      vs = ⟨rule, word, o⟩ :: more := by
  rw [visits] at visited
  cases applied : rule.outcome s word with
  | error e => rw [applied] at visited; cases visited
  | ok o =>
    rw [applied] at visited
    cases later : visits s rest o.result with
    | error e =>
      simp only [bind, Except.bind, later] at visited
      cases visited
    | ok more =>
      simp only [bind, Except.bind, later] at visited
      cases visited
      exact ⟨o, more, rfl, later, rfl⟩

theorem visits_result (rules : List Rule) (word : Text) :
    (visits s rules word).map (lastResult word) = rules.foldlM (Rule.result s) word := by
  induction rules generalizing word with
  | nil => rfl
  | cons rule rest ih =>
    rw [visits, List.foldlM_cons, Rule.result]
    cases rule.outcome s word with
    | error e => rfl
    | ok o =>
      have later := ih o.result
      simp only [bind, Except.bind, Except.map] at later ⊢
      rw [← later]
      cases visits s rest o.result <;> rfl

theorem mem_visits (rules : List Rule) {vs : List Visit}
    (visited : visits s rules word = .ok vs) {v : Visit} (member : v ∈ vs) :
    v.rule.outcome s v.word = .ok v.outcome := by
  induction rules generalizing word vs with
  | nil => cases visited; cases member
  | cons rule rest ih =>
    obtain ⟨o, more, applied, later, rfl⟩ := visits_cons visited
    rcases List.mem_cons.mp member with rfl | member
    · exact applied
    · exact ih later member

theorem visits_chain (rules : List Rule) {vs : List Visit}
    (visited : visits s rules word = .ok vs) :
    Chain word (stepsOf vs) (lastResult word vs) := by
  induction rules generalizing word vs with
  | nil => cases visited; rfl
  | cons rule rest ih =>
    obtain ⟨o, more, applied, later, rfl⟩ := visits_cons visited
    have chain := ih later
    unfold stepsOf lastResult at chain ⊢
    cases changed : o.changed with
    | true =>
      rw [List.filter_cons_of_pos (by exact changed)]
      exact ⟨rfl, chain⟩
    | false =>
      -- The word goes on as it was, so the chain of the rest starts here.
      rw [Rule.outcome_unchanged applied changed] at chain
      rw [List.filter_cons_of_neg (by simp [changed]), List.foldl_cons,
        Rule.outcome_unchanged applied changed]
      exact chain

/-! ### A run from its visits -/

namespace Change

def record (c : Change) (vs : List Visit) : Change :=
  ⟨lastResult c.result vs, c.steps ++ stepsOf vs,
    c.warnings ++ vs.flatMap fun v => v.outcome.warnings⟩

theorem applyRule_outcome (ruleSet : Text) (c : Change) (rule : Rule) :
    (c.applyRule s ruleSet rule).outcome = (rule.outcome s c.result).map (c.add rule) := by
  rw [applyRule, Journal.outcome_bind, Rule.outcome]
  cases (rule.apply s.model s.macros s.inventory c.result).outcome with
  | error e => rfl
  | ok o =>
    simp only [Except.bind, Except.map]
    split <;> rfl

theorem add_eq_record (c : Change) (applied : rule.outcome s c.result = .ok o) :
    c.add rule o = c.record [⟨rule, c.result, o⟩] := by
  unfold add record lastResult stepsOf
  cases changed : o.changed with
  | true => simp [changed, Visit.step]
  | false => simp [changed, Rule.outcome_unchanged applied changed]

theorem record_record (c : Change) (vs ws : List Visit) :
    (c.record vs).record ws = c.record (vs ++ ws) := by
  simp [record, lastResult, stepsOf]

theorem applyRules_outcome (rules : List (Text × Rule)) (c : Change) :
    (applyRules s rules c).outcome = (visits s (rules.map Prod.snd) c.result).map c.record := by
  induction rules generalizing c with
  | nil => simp [applyRules, visits, Except.map, record, lastResult, stepsOf]
  | cons entry rest ih =>
    obtain ⟨ruleSet, rule⟩ := entry
    rw [applyRules, Journal.outcome_bind, applyRule_outcome, List.map_cons, visits]
    cases applied : rule.outcome s c.result with
    | error e => rfl
    | ok o =>
      simp only [bind, Except.bind, Except.map, ih, add_eq_record c applied]
      have reached : (c.record [⟨rule, c.result, o⟩]).result = o.result := rfl
      rw [reached]
      cases visits s (rest.map Prod.snd) o.result with
      | error e => rfl
      | ok more => exact congrArg Except.ok (record_record c [⟨rule, c.result, o⟩] more)

end Change

/-! ### The order of the sets -/

/-- Sets by ascending order; sets of equal order are as they were. -/
structure Ordered (sets sorted : List RuleSet) : Prop where
  ascending : sorted.Pairwise fun a b => a.order ≤ b.order
  stable : ∀ order, sorted.filter (·.order = order) = sets.filter (·.order = order)

theorem order_total (a b : RuleSet) :
    decide (a.order ≤ b.order) = true ∨ decide (b.order ≤ a.order) = true := by
  simpa using Int.le_total a.order b.order

theorem inOrder_ordered (sets : List RuleSet) : Ordered sets (inOrder sets) where
  ascending := by
    have trans (a b c : RuleSet) (first : decide (a.order ≤ b.order) = true)
        (second : decide (b.order ≤ c.order) = true) : decide (a.order ≤ c.order) = true := by
      simp only [decide_eq_true_eq] at first second ⊢
      exact Int.le_trans first second
    have sorted := sortBy_ascending order_total trans sets
    simpa only [inOrder, decide_eq_true_eq] using sorted
  stable := by
    intro order
    refine sortBy_stable (fun a b first second => ?_) sets
    simp only [decide_eq_true_eq] at first second ⊢
    omega

theorem rulesInOrder_rules (sets : List RuleSet) :
    (rulesInOrder sets).map Prod.snd = (inOrder sets).flatMap RuleSet.rules := by
  simp [rulesInOrder, List.map_flatMap, Function.comp_def]

/-- A run is the fold of its rules in order. Its steps are the visits that changed the word, and
they are a chain from the word to the result. -/
theorem run_traces (s : Setting) (sets : List RuleSet) (word : Text) :
    ∃ sorted, Ordered sets sorted ∧
      (runWord s sets word).outcome.map Change.result =
        (sorted.flatMap RuleSet.rules).foldlM (Rule.result s) word ∧
      ∀ c, (runWord s sets word).outcome = .ok c →
        Chain word c.steps c.result ∧
        ∃ vs, visits s (sorted.flatMap RuleSet.rules) word = .ok vs ∧ c.steps = stepsOf vs ∧
          ∀ v ∈ vs, v.outcome.changed = true →
            (v.step.detail = none ↔ ∃ r, v.rule = .character r) := by
  have run : (runWord s sets word).outcome =
      (visits s ((inOrder sets).flatMap RuleSet.rules) word).map
        (Change.record ⟨word, [], []⟩) := by
    rw [runWord, Change.applyRules_outcome, rulesInOrder_rules]
  refine ⟨inOrder sets, inOrder_ordered sets, ?_, ?_⟩
  · rw [run, ← visits_result]
    cases visits s ((inOrder sets).flatMap RuleSet.rules) word <;> rfl
  · intro c ended
    rw [run] at ended
    cases visited : visits s ((inOrder sets).flatMap RuleSet.rules) word with
    | error e => rw [visited] at ended; cases ended
    | ok vs =>
      rw [visited] at ended
      cases ended
      refine ⟨visits_chain _ visited, vs, rfl, rfl, ?_⟩
      intro v member changed
      exact Rule.outcome_detail (mem_visits _ visited member) changed

def lenition : List RuleSet :=
  [⟨['2'], [], 2, [.character ⟨['d'], [], ['a'], [], [], ['#'], []⟩]⟩,
    ⟨['1'], [], 1, [.feature ⟨['v'], [], some ⟨["stop"], [], by decide⟩, some ⟨["voiced"], []⟩,
      none, none, []⟩]⟩]

def stops : Setting := ⟨.ofList [("p", ["stop"]), ("b", ["stop", "voiced"])], [], []⟩

theorem run_traces_lenition :
    ∃ c, (runWord stops lenition "pa").outcome = .ok c ∧ c.result = ("b" : Text) ∧
      Chain "pa" c.steps c.result := by
  obtain ⟨_, _, _, traced⟩ := run_traces stops lenition "pa"
  have ended : (runWord stops lenition "pa").outcome =
      .ok ⟨"b", [⟨['v'], "[+stop] → [+voiced]", "pa", "ba", some "p→b [+voiced]"⟩,
        ⟨['d'], "a → ", "ba", "b", none⟩], []⟩ := by
    decide
  exact ⟨_, ended, rfl, (traced _ ended).1⟩

end SoundLaw
