import SoundLaw.Proofs.Journal
import SoundLaw.Proofs.Rule.Attempts
import SoundLaw.Proofs.Rule.Moves

/-!
The events of a run beside its result. Rule by rule a run tells of the patterns that are refused and
then of the change, so its warnings and its steps can be read off its events. A rule is told of when
it is marked as a change; so a rule that returns the word it was given is told of all the same.
-/
namespace SoundLaw
variable {s : Setting} {word : Text}

/-! ### What a run should tell -/

def Attempt.notice? (a : Attempt) : Option Event :=
  let pattern := rulePattern a.pair.1 a.before a.after
  match Regex.compile pattern with
  | .error (.syntaxFault f) => some (.patternRefused a.rule.id pattern (f.message pattern))
  | _ => none

/-- When a rule is told of: by its mark, or by its result. -/
abbrev Telling := Text → Outcome → Bool

def marked : Telling := fun _ o => o.changed

def altered : Telling := fun word o => o.result != word

/-- One event for each pattern of the rule that is tried and refused, then one for the change. -/
def Rule.story (s : Setting) (telling : Telling) (ruleSet word : Text) (rule : Rule) : List Event :=
  (rule.attempts s word).filterMap Attempt.notice? ++
    match rule.outcome s word with
    | .ok o => if telling word o then [.ruleApplied rule.id ruleSet word o.result] else []
    | .error _ => []

/-- The stories of rules, each at the word that the rules before it made; a fault ends them. -/
def story (s : Setting) (telling : Telling) : List (Text × Rule) → Text → List Event
  | [], _ => []
  | (ruleSet, rule) :: rest, word =>
    rule.story s telling ruleSet word ++
      match rule.outcome s word with
      | .ok o => story s telling rest o.result
      | .error _ => []

/-! ### What a run tells -/

namespace CharacterRule
variable {r : CharacterRule} {before after : Text}

theorem applyPair_events (o : Outcome) (pair : Text × Text) :
    (r.applyPair before after o pair).events =
      (r.attempt before after o pair).filterMap Attempt.notice? := by
  unfold attempt
  by_cases excepted : hasException o.result r.exceptions = true
  · rw [applyPair_excepted excepted, if_pos excepted]
    rfl
  · rw [if_neg excepted]
    cases compiled : Regex.compile (rulePattern pair.1 before after) with
    | ok p =>
      rw [applyPair_compiled excepted compiled]
      simp [Attempt.notice?, compiled]
    | error refused =>
      cases refused with
      | syntaxFault f =>
        rw [applyPair_refused excepted compiled]
        simp [Attempt.notice?, compiled]
      | conflictingFlags c =>
        rw [applyPair_conflicting excepted compiled]
        simp [Attempt.notice?, compiled]

theorem applyPairs_events (pairs : List (Text × Text)) (o : Outcome) :
    (r.applyPairs before after pairs o).events =
      (r.attempts before after pairs o).filterMap Attempt.notice? := by
  induction pairs generalizing o with
  | nil => rfl
  | cons pair rest ih =>
    rw [applyPairs, attempts, Journal.events_bind, List.filterMap_append, applyPair_events]
    cases (r.applyPair before after o pair).outcome with
    | error fault => rfl
    | ok o₁ => exact congrArg (_ ++ ·) (ih o₁)

end CharacterRule

theorem Rule.apply_events (s : Setting) (word : Text) (rule : Rule) :
    (rule.apply s.model s.macros s.inventory word).events =
      (rule.attempts s word).filterMap Attempt.notice? := by
  cases rule with
  | character r => exact CharacterRule.applyPairs_events r.pairs _
  | feature r => rfl

theorem Change.applyRule_events (ruleSet : Text) (c : Change) (rule : Rule) :
    (c.applyRule s ruleSet rule).events = rule.story s marked ruleSet c.result := by
  rw [applyRule, Journal.events_bind, Rule.apply_events, Rule.story, Rule.outcome]
  cases (rule.apply s.model s.macros s.inventory c.result).outcome with
  | error fault => rfl
  | ok o =>
    refine congrArg (_ ++ ·) ?_
    cases flag : o.changed <;> simp only [marked, flag] <;> rfl

theorem Change.applyRules_events (rules : List (Text × Rule)) (c : Change) :
    (applyRules s rules c).events = story s marked rules c.result := by
  induction rules generalizing c with
  | nil => rfl
  | cons entry rest ih =>
    obtain ⟨ruleSet, rule⟩ := entry
    rw [applyRules, story, Journal.events_bind, applyRule_events, applyRule_outcome]
    cases applied : rule.outcome s c.result with
    | error fault => rfl
    | ok o =>
      simp only [Except.map]
      rw [ih, add_eq_record c applied]
      rfl

theorem runWord_events (s : Setting) (sets : List RuleSet) (word : Text) :
    (runWord s sets word).events = story s marked (rulesInOrder sets) word :=
  Change.applyRules_events _ _

/-! ### Events beside warnings and steps -/

namespace Event

def warning? : Event → Option Text
  | .patternRefused rule _ reason => some (Problem.compilation rule ++ " failed: " ++ reason)
  | _ => none

def change? : Event → Option (Text × Text × Text)
  | .ruleApplied rule _ before after => some (rule, before, after)
  | _ => none

/-- Whether an event, if it tells of a change, tells of one to another word. -/
def moves : Event → Bool
  | .ruleApplied _ _ before after => after != before
  | _ => true

end Event

def Step.change (step : Step) : Text × Text × Text := (step.rule, step.before, step.after)

namespace Attempt
variable {tried : List Attempt}

theorem notice_warning (a : Attempt) : a.notice?.bind Event.warning? = a.warning? := by
  unfold notice? warning? CharacterRule.refusal?
  dsimp only
  cases Regex.compile (rulePattern a.pair.1 a.before a.after) with
  | ok p => rfl
  | error refused => cases refused <;> rfl

theorem notices_warnings (tried : List Attempt) :
    (tried.filterMap notice?).filterMap Event.warning? = tried.filterMap warning? := by
  rw [List.filterMap_filterMap]
  exact congrArg (List.filterMap · tried) (funext notice_warning)

theorem notices_refuse {e : Event} (told : e ∈ tried.filterMap notice?) :
    ∃ rule pattern reason, e = .patternRefused rule pattern reason := by
  obtain ⟨a, _, notice⟩ := List.mem_filterMap.mp told
  unfold notice? at notice
  dsimp only at notice
  split at notice
  · cases notice
    exact ⟨_, _, _, rfl⟩
  · cases notice

theorem notices_changes : (tried.filterMap notice?).filterMap Event.change? = [] := by
  rw [List.filterMap_eq_nil_iff]
  intro e told
  obtain ⟨_, _, _, rfl⟩ := notices_refuse told
  rfl

theorem notices_moves : (tried.filterMap notice?).filter Event.moves = tried.filterMap notice? := by
  rw [List.filter_eq_self]
  intro e told
  obtain ⟨_, _, _, rfl⟩ := notices_refuse told
  rfl

end Attempt

namespace Rule
variable {rule : Rule} {o : Outcome} {ruleSet : Text}

theorem attempts_warnings (applied : rule.outcome s word = .ok o) :
    (rule.attempts s word).filterMap Attempt.warning? = o.warnings := by
  have tried := rule.outcome_verdict s word
  rw [applied, verdict] at tried
  split at tried
  · cases tried
  · exact (Except.ok.inj tried).symm

theorem story_warnings (applied : rule.outcome s word = .ok o) :
    (rule.story s marked ruleSet word).filterMap Event.warning? = o.warnings := by
  rw [story, applied, List.filterMap_append, Attempt.notices_warnings, attempts_warnings applied]
  dsimp only
  split <;> exact List.append_nil _

theorem story_changes (applied : rule.outcome s word = .ok o) :
    (rule.story s marked ruleSet word).filterMap Event.change? =
      (stepsOf [⟨rule, word, o⟩]).map Step.change := by
  rw [story, applied, List.filterMap_append, Attempt.notices_changes, List.nil_append, stepsOf_cons]
  cases flag : o.changed <;> simp only [marked, flag] <;> rfl

theorem story_altered : rule.story s altered ruleSet word =
    (rule.story s marked ruleSet word).filter Event.moves := by
  rw [story, story, List.filter_append, Attempt.notices_moves]
  cases applied : rule.outcome s word with
  | error fault => rfl
  | ok o =>
    refine congrArg (_ ++ ·) ?_
    cases flag : o.changed with
    | true => simp [marked, altered, flag, List.filter_cons, Event.moves]
    | false =>
      have same := outcome_unchanged applied flag
      simp [marked, altered, flag, same]

theorem story_moves_iff (applied : rule.outcome s word = .ok o) :
    (∀ e ∈ rule.story s marked ruleSet word, e.moves = true) ↔ ¬ rule.Returns s word := by
  rw [returns_iff applied, ← List.filter_eq_self, story, applied, List.filter_append,
    Attempt.notices_moves, List.append_cancel_left_eq]
  cases flag : o.changed <;> simp [marked, flag, Event.moves]

end Rule

/-! ### Runs -/

variable {rules : List (Text × Rule)} {vs : List Visit}

theorem story_altered (rules : List (Text × Rule)) (word : Text) :
    story s altered rules word = (story s marked rules word).filter Event.moves := by
  induction rules generalizing word with
  | nil => rfl
  | cons entry rest ih =>
    obtain ⟨ruleSet, rule⟩ := entry
    rw [story, story, List.filter_append, Rule.story_altered]
    cases rule.outcome s word with
    | error fault => rfl
    | ok o => exact congrArg (_ ++ ·) (ih o.result)

theorem story_cons {entry : Text × Rule} {rest : List (Text × Rule)} {o : Outcome}
    (applied : entry.2.outcome s word = .ok o) :
    story s marked (entry :: rest) word =
      entry.2.story s marked entry.1 word ++ story s marked rest o.result := by
  rw [story, applied]

/-- What is read off the stories of rules is read off their visits one by one. -/
theorem story_reads {α : Type} {read : Event → Option α} (each : Visit → List α)
    (one : ∀ {rule : Rule} {word o ruleSet}, rule.outcome s word = .ok o →
      (rule.story s marked ruleSet word).filterMap read = each ⟨rule, word, o⟩)
    (visited : visits s (rules.map Prod.snd) word = .ok vs) :
    (story s marked rules word).filterMap read = vs.flatMap each := by
  induction rules generalizing word vs with
  | nil =>
    cases visited
    rfl
  | cons entry rest ih =>
    obtain ⟨o, more, applied, later, rfl⟩ := visits_cons visited
    rw [story_cons applied, List.filterMap_append, one applied, ih later, List.flatMap_cons]

theorem stepsOf_flatMap (vs : List Visit) : stepsOf vs = vs.flatMap fun v => stepsOf [v] := by
  induction vs with
  | nil => rfl
  | cons v rest ih =>
    rw [List.flatMap_cons, ← ih, stepsOf_cons, stepsOf_cons]
    split <;> rfl

theorem story_changes (visited : visits s (rules.map Prod.snd) word = .ok vs) :
    (story s marked rules word).filterMap Event.change? = (stepsOf vs).map Step.change := by
  rw [story_reads (fun v => (stepsOf [v]).map Step.change) Rule.story_changes visited,
    stepsOf_flatMap vs, List.map_flatMap]

theorem story_moves_iff (visited : visits s (rules.map Prod.snd) word = .ok vs) :
    (∀ e ∈ story s marked rules word, e.moves = true) ↔ ∀ v ∈ vs, ¬ v.rule.Returns s v.word := by
  induction rules generalizing word vs with
  | nil =>
    cases visited
    simp [story]
  | cons entry rest ih =>
    obtain ⟨o, more, applied, later, rfl⟩ := visits_cons visited
    rw [story_cons applied, List.forall_mem_append, List.forall_mem_cons,
      Rule.story_moves_iff applied, ih later]

/-- A run tells, rule by rule, of the patterns refused and of the change that it is marked as, also
where it ends in a fault. In a run that returns the events that tell of refused patterns are those
of the warnings, and those that tell of changes are those of the steps. And a run returns and tells
of just those rules that change the word exactly when none of its rules returns the word. -/
theorem run_tells_story (s : Setting) (sets : List RuleSet) (word : Text) :
    (runWord s sets word).events = story s marked (rulesInOrder sets) word ∧
    (∀ c, (runWord s sets word).outcome = .ok c →
      c.warnings = (runWord s sets word).events.filterMap Event.warning? ∧
      c.steps.map Step.change = (runWord s sets word).events.filterMap Event.change?) ∧
    (((∃ c, (runWord s sets word).outcome = .ok c) ∧
        (runWord s sets word).events = story s altered (rulesInOrder sets) word) ↔
      ∃ vs, visits s ((rulesInOrder sets).map Prod.snd) word = .ok vs ∧
        ∀ v ∈ vs, ¬ v.rule.Returns s v.word) := by
  have run : (runWord s sets word).outcome =
      (visits s ((rulesInOrder sets).map Prod.snd) word).map (Change.record ⟨word, [], []⟩) :=
    Change.applyRules_outcome _ _
  rw [runWord_events, run, story_altered]
  cases visited : visits s ((rulesInOrder sets).map Prod.snd) word with
  | error fault => simp [Except.map]
  | ok vs =>
    refine ⟨rfl, ?_, ?_⟩
    · intro c ended
      cases ended
      rw [story_reads (fun v => v.outcome.warnings) Rule.story_warnings visited,
        story_changes visited]
      exact ⟨rfl, rfl⟩
    · rw [eq_comm (a := story s marked _ _), List.filter_eq_self, story_moves_iff visited]
      simp [Except.map]

theorem run_tells_story_unfinished :
    (runWord stops [unfinished.whole] "pat").events.filterMap Event.warning? =
        ["Pattern compilation for rule 'q' failed: missing ) at position 7"] ∧
      (runWord stops [unfinished.whole] "pat").events.filterMap Event.change? =
        [(['r'], ['p', 'a', 't'], ['p', 'a', 'd'])] ∧
      (runWord stops [unfinished.whole] "pat").events =
        story stops altered (rulesInOrder [unfinished.whole]) "pat" := by
  have ended : (runWord stops [unfinished.whole] "pat").outcome =
      .ok ⟨"pad", [⟨['r'], "t → d", "pat", "pad", none⟩],
        ["Pattern compilation for rule 'q' failed: missing ) at position 7"]⟩ := by
    decide
  have visited : visits stops ((rulesInOrder [unfinished.whole]).map Prod.snd) "pat" =
      .ok [⟨.character ⟨['q'], [], ['p'], ['b'], ['('], [], []⟩, "pat", ⟨"pat", false, [],
          ["Pattern compilation for rule 'q' failed: missing ) at position 7"]⟩⟩,
        ⟨.character ⟨['r'], [], ['t'], ['d'], [], [], []⟩, "pat", ⟨"pad", true, [], []⟩⟩,
        ⟨.feature ⟨['f'], [], none, none, none, none, []⟩, "pad", ⟨"pad", false, [], []⟩⟩] := by
    rfl
  obtain ⟨_, told, just⟩ := run_tells_story stops [unfinished.whole] "pat"
  obtain ⟨warnings, changes⟩ := told _ ended
  refine ⟨warnings.symm, changes.symm, (just.mpr ⟨_, visited, ?_⟩).2⟩
  intro v visit returns
  have flagged := (Rule.returns_iff (mem_visits _ visited visit)).mp returns
  clear returns
  revert v
  decide

/-- A rule that returns the word is told of as one that changed it. -/
theorem swap_told :
    ¬ ∀ s sets word c, (runWord s sets word).outcome = .ok c →
      (runWord s sets word).events = story s altered (rulesInOrder sets) word := by
  intro told
  have ended : (runWord ⟨.empty, [], []⟩ [swap] "a").outcome =
      .ok ⟨"a", [⟨['r'], "a b → b a", "a", "a", none⟩], []⟩ := by
    decide
  cases told ⟨.empty, [], []⟩ [swap] "a" _ ended

end SoundLaw
