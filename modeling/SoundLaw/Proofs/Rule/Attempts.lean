import SoundLaw.Proofs.Rule.Batch
import SoundLaw.Proofs.Rule.Deletion

/-!
What a run tries. A run ends without a result exactly when it comes to a pattern whose flags exclude
one another. Any other pattern that is refused costs its pair and one warning.
-/
namespace SoundLaw

/-- A pair of a rule between the contexts of the rule, with the macros expanded. -/
structure Attempt where
  rule : CharacterRule
  before : Text
  after : Text
  pair : Text × Text

namespace Attempt

def fault? (a : Attempt) : Option RunFault :=
  match Regex.compile (rulePattern a.pair.1 a.before a.after) with
  | .error (.conflictingFlags c) => some (.conflictingFlags c)
  | _ => none

def warning? (a : Attempt) : Option Text := a.rule.refusal? a.before a.after a.pair

end Attempt

/-- What comes of attempts: the first fault, or else all warnings. -/
def verdict (tried : List Attempt) : Except RunFault (List Text) :=
  match tried.findSome? Attempt.fault? with
  | some fault => .error fault
  | none => .ok (tried.filterMap Attempt.warning?)

theorem verdict_append (tried more : List Attempt) :
    verdict (tried ++ more) =
      (verdict tried).bind fun warnings => (verdict more).map (warnings ++ ·) := by
  unfold verdict
  rw [List.findSome?_append, List.filterMap_append]
  cases tried.findSome? Attempt.fault? with
  | some fault => rfl
  | none =>
    rw [Option.none_or]
    cases more.findSome? Attempt.fault? <;> rfl

def Outcome.unwarned (o : Outcome) : Outcome := { o with warnings := [] }

/-! ### The attempts of a rule -/

namespace CharacterRule
variable {r : CharacterRule} {before after : Text} {o o' : Outcome} {pair : Text × Text}

def attempt (r : CharacterRule) (before after : Text) (o : Outcome) (pair : Text × Text) :
    List Attempt :=
  if hasException o.result r.exceptions then [] else [⟨r, before, after, pair⟩]

/-- The attempts of pairs, each at what the pairs before it left; a fault is the last. -/
def attempts (r : CharacterRule) (before after : Text) : List (Text × Text) → Outcome → List Attempt
  | [], _ => []
  | pair :: rest, o =>
    r.attempt before after o pair ++
      match (r.applyPair before after o pair).outcome with
      | .ok o => r.attempts before after rest o
      | .error _ => []

theorem applyPair_verdict (r : CharacterRule) (before after : Text) (o : Outcome)
    (pair : Text × Text) :
    (r.applyPair before after o pair).outcome.map Outcome.warnings =
      (verdict (r.attempt before after o pair)).map (o.warnings ++ ·) := by
  unfold attempt
  by_cases excepted : hasException o.result r.exceptions = true
  · rw [applyPair_excepted excepted, if_pos excepted]
    exact congrArg Except.ok (List.append_nil _).symm
  · rw [if_neg excepted]
    cases compiled : Regex.compile (rulePattern pair.1 before after) with
    | ok p =>
      have passes : verdict [⟨r, before, after, pair⟩] = .ok [] := by
        simp [verdict, Attempt.fault?, Attempt.warning?, refusal?, compiled]
      rw [applyPair_compiled excepted compiled, passes]
      split <;> exact congrArg Except.ok (List.append_nil _).symm
    | error refused =>
      cases refused with
      | syntaxFault f =>
        rw [applyPair_refused excepted compiled]
        simp [verdict, Attempt.fault?, Attempt.warning?, refusal?, compiled, Except.map]
      | conflictingFlags c =>
        rw [applyPair_conflicting excepted compiled]
        simp [verdict, Attempt.fault?, compiled, Except.map]

theorem applyPairs_verdict (pairs : List (Text × Text)) (o : Outcome) :
    (r.applyPairs before after pairs o).outcome.map Outcome.warnings =
      (verdict (r.attempts before after pairs o)).map (o.warnings ++ ·) := by
  induction pairs generalizing o with
  | nil => exact congrArg Except.ok (List.append_nil _).symm
  | cons pair rest ih =>
    have first := applyPair_verdict r before after o pair
    rw [applyPairs, attempts, Journal.outcome_bind, verdict_append]
    cases applied : (r.applyPair before after o pair).outcome with
    | error fault =>
      rw [applied] at first
      cases tried : verdict (r.attempt before after o pair) with
      | error e => rw [tried] at first; exact first
      | ok warnings => rw [tried] at first; cases first
    | ok o₁ =>
      rw [applied] at first
      cases tried : verdict (r.attempt before after o pair) with
      | error e => rw [tried] at first; cases first
      | ok warnings =>
        rw [tried] at first
        have added : o₁.warnings = o.warnings ++ warnings := Except.ok.inj first
        show (r.applyPairs before after rest o₁).outcome.map Outcome.warnings = _
        rw [ih, added]
        cases verdict (r.attempts before after rest o₁) with
        | error e => rfl
        | ok later => exact congrArg Except.ok (List.append_assoc _ _ _)

/-! ### Refused pairs are skipped -/

def accepted (r : CharacterRule) (before after : Text) (pairs : List (Text × Text)) :
    List (Text × Text) :=
  pairs.filter fun pair => (r.refusal? before after pair).isNone

theorem applyPair_skips {warning : Text} (refused : r.refusal? before after pair = some warning) :
    ∃ o', (r.applyPair before after o pair).outcome = .ok o' ∧ o'.unwarned = o.unwarned := by
  by_cases excepted : hasException o.result r.exceptions = true
  · exact ⟨o, by rw [applyPair_excepted excepted], rfl⟩
  · unfold refusal? at refused
    dsimp only at refused
    split at refused
    · rename_i f compiled
      rw [applyPair_refused excepted compiled]
      exact ⟨_, rfl, rfl⟩
    · cases refused

theorem applyPair_unwarned (same : o.unwarned = o'.unwarned) :
    (r.applyPair before after o pair).outcome.map Outcome.unwarned =
      (r.applyPair before after o' pair).outcome.map Outcome.unwarned := by
  obtain ⟨result, changed, details, warnings⟩ := o
  obtain ⟨result', changed', details', warnings'⟩ := o'
  simp only [Outcome.unwarned, Outcome.mk.injEq, and_true] at same
  obtain ⟨rfl, rfl, rfl⟩ := same
  unfold applyPair
  dsimp only
  split
  · rfl
  · split
    · rfl
    · rfl
    · split <;> rfl

theorem applyPairs_accepted (pairs : List (Text × Text)) {o o' : Outcome}
    (same : o.unwarned = o'.unwarned) :
    (r.applyPairs before after pairs o).outcome.map Outcome.unwarned =
      (r.applyPairs before after (r.accepted before after pairs) o').outcome.map
        Outcome.unwarned := by
  induction pairs generalizing o o' with
  | nil => exact congrArg Except.ok same
  | cons pair rest ih =>
    rw [applyPairs, Journal.outcome_bind]
    cases refused : r.refusal? before after pair with
    | some warning =>
      obtain ⟨o₁, applied, skipped⟩ := @applyPair_skips r before after o pair _ refused
      rw [accepted, List.filter_cons_of_neg (by simp [refused]), ← accepted, applied]
      exact ih (skipped.trans same)
    | none =>
      have step : (r.applyPair before after o pair).outcome.map Outcome.unwarned =
          (r.applyPair before after o' pair).outcome.map Outcome.unwarned := applyPair_unwarned same
      rw [accepted, List.filter_cons_of_pos (by simp [refused]), ← accepted, applyPairs,
        Journal.outcome_bind]
      cases first : (r.applyPair before after o pair).outcome with
      | error e =>
        cases second : (r.applyPair before after o' pair).outcome with
        | error e' => rw [first, second] at step; cases step; rfl
        | ok o₂ => rw [first, second] at step; cases step
      | ok o₁ =>
        cases second : (r.applyPair before after o' pair).outcome with
        | error e' => rw [first, second] at step; cases step
        | ok o₂ => rw [first, second] at step; exact ih (Except.ok.inj step)

end CharacterRule

/-! ### The attempts of a run -/

def Rule.attempts (s : Setting) (word : Text) : Rule → List Attempt
  | .character r =>
    r.attempts (expandContext s.macros r.before) (expandContext s.macros r.after) r.pairs
      ⟨word, false, [], []⟩
  | .feature _ => []

def attempts (s : Setting) : List Rule → Text → List Attempt
  | [], _ => []
  | rule :: rest, word =>
    rule.attempts s word ++
      match rule.outcome s word with
      | .ok o => attempts s rest o.result
      | .error _ => []

theorem Rule.outcome_verdict (s : Setting) (word : Text) (rule : Rule) :
    (rule.outcome s word).map Outcome.warnings = verdict (rule.attempts s word) := by
  cases rule with
  | character r =>
    rw [outcome, apply, CharacterRule.apply, CharacterRule.applyPairs_verdict, attempts]
    cases verdict _ <;> rfl
  | feature r =>
    have none : (r.apply s.model s.inventory word).warnings = [] := by
      rw [FeatureRule.apply]
      split <;> rfl
    exact congrArg Except.ok none

theorem visits_verdict (rules : List Rule) (word : Text) :
    (visits s rules word).map (List.flatMap fun v => v.outcome.warnings) =
      verdict (attempts s rules word) := by
  induction rules generalizing word with
  | nil => rfl
  | cons rule rest ih =>
    rw [visits, attempts, verdict_append, ← Rule.outcome_verdict]
    cases rule.outcome s word with
    | error e => rfl
    | ok o =>
      have later := ih o.result
      simp only [bind, Except.bind, Except.map] at later ⊢
      rw [← later]
      cases visits s rest o.result <;> rfl

theorem runWord_verdict (s : Setting) (sets : List RuleSet) (word : Text) :
    (runWord s sets word).outcome.map Change.warnings =
      verdict (attempts s ((inOrder sets).flatMap RuleSet.rules) word) := by
  rw [runWord, Change.applyRules_outcome, rulesInOrder_rules, ← visits_verdict]
  cases visits s ((inOrder sets).flatMap RuleSet.rules) word <;> rfl

/-- A run ends in a fault exactly when it tries a pattern whose flags exclude one another, and then
in the first such fault. Otherwise it returns, with one warning for each pattern it tried that is
refused. A rule does to a word what it does without its refused pairs. -/
theorem run_returns_unless_conflicting (s : Setting) (sets : List RuleSet) (word : Text) :
    (∀ fault, (runWord s sets word).outcome = .error fault ↔
      (attempts s ((inOrder sets).flatMap RuleSet.rules) word).findSome? Attempt.fault? =
        some fault) ∧
    (∀ c, (runWord s sets word).outcome = .ok c → c.warnings =
      (attempts s ((inOrder sets).flatMap RuleSet.rules) word).filterMap Attempt.warning?) ∧
    ∀ (r : CharacterRule) before after pairs o,
      (r.applyPairs before after pairs o).outcome.map Outcome.unwarned =
        (r.applyPairs before after (r.accepted before after pairs) o).outcome.map
          Outcome.unwarned := by
  have run := runWord_verdict s sets word
  unfold verdict at run
  refine ⟨fun fault => ?_, fun c ended => ?_,
    fun r before after pairs o => CharacterRule.applyPairs_accepted pairs rfl⟩
  · cases tried : (attempts s ((inOrder sets).flatMap RuleSet.rules) word).findSome?
        Attempt.fault? with
    | none =>
      rw [tried] at run
      cases ended : (runWord s sets word).outcome with
      | error e => rw [ended] at run; cases run
      | ok c => simp
    | some first =>
      rw [tried] at run
      cases ended : (runWord s sets word).outcome with
      | error e => rw [ended] at run; cases run; simp
      | ok c => rw [ended] at run; cases run
  · rw [ended] at run
    split at run
    · cases run
    · exact Except.ok.inj run

theorem run_returns_unless_conflicting_unfinished :
    (∃ c, (runWord stops [unfinished.whole] "pat").outcome = .ok c ∧ c.result = ("pad" : Text) ∧
      c.warnings = (attempts stops unfinished.whole.rules "pat").filterMap Attempt.warning? ∧
      c.warnings = ["Pattern compilation for rule 'q' failed: missing ) at position 7"]) ∧
      (attempts stops conflicting.rules "a").findSome? Attempt.fault? =
        some (.conflictingFlags .characters) := by
  have ended : (runWord stops [unfinished.whole] "pat").outcome =
      .ok ⟨"pad", [⟨['r'], "t → d", "pat", "pad", none⟩],
        ["Pattern compilation for rule 'q' failed: missing ) at position 7"]⟩ := by
    decide
  have fault : (runWord stops [conflicting] "a").outcome =
      .error (.conflictingFlags .characters) := by
    decide
  obtain ⟨_, warned, _⟩ := run_returns_unless_conflicting stops [unfinished.whole] "pat"
  obtain ⟨faulted, _, _⟩ := run_returns_unless_conflicting stops [conflicting] "a"
  exact ⟨⟨_, ended, rfl, warned _ ended, rfl⟩, (faulted _).mp fault⟩

/-- Flags that exclude one another end the run; no warning stands for them. -/
theorem conflicting_flags_end_run : ¬ ∃ c, (runWord stops [conflicting] "a").outcome = .ok c := by
  rintro ⟨c, ended⟩
  have fault : (runWord stops [conflicting] "a").outcome =
      .error (.conflictingFlags .characters) := by
    decide
  rw [fault] at ended
  cases ended

end SoundLaw
