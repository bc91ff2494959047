import SoundLaw.Proofs.Rule.Trace

/-!
Rules that change nothing may be struck out. A run without them has the same result and the same
steps, and of the warnings only theirs are missing: one for each pair whose pattern is refused,
unless an exception stands in the word.
-/
namespace SoundLaw
variable {s : Setting} {word : Text}

/-! ### The warnings of a rule that changes nothing -/

namespace CharacterRule
variable {r : CharacterRule} {before after : Text}

def refusal? (r : CharacterRule) (before after : Text) (pair : Text × Text) : Option Text :=
  let pattern := rulePattern pair.1 before after
  match Regex.compile pattern with
  | .error (.syntaxFault f) =>
    some (Problem.malformedPattern pattern r.id (f.message pattern)).message
  | _ => none

def refusals (r : CharacterRule) (before after word : Text) (pairs : List (Text × Text)) :
    List Text :=
  if hasException word r.exceptions then [] else pairs.filterMap (r.refusal? before after)

theorem applyPair_warnings {o o' : Outcome} {pair : Text × Text}
    (applied : (r.applyPair before after o pair).outcome = .ok o') :
    o'.warnings = o.warnings ++ r.refusals before after o.result [pair] := by
  by_cases excepted : hasException o.result r.exceptions = true
  · rw [applyPair_excepted excepted] at applied
    cases applied
    simp [refusals, excepted]
  · cases compiled : Regex.compile (rulePattern pair.1 before after) with
    | ok p =>
      rw [applyPair_compiled excepted compiled] at applied
      cases applied
      have none : r.refusal? before after pair = none := by simp [refusal?, compiled]
      rw [refusals, if_neg excepted, List.filterMap_cons_none none]
      split <;> simp
    | error refused =>
      cases refused with
      | syntaxFault f =>
        rw [applyPair_refused excepted compiled] at applied
        cases applied
        simp [refusals, excepted, refusal?, compiled]
      | conflictingFlags c =>
        rw [applyPair_conflicting excepted compiled] at applied
        cases applied

theorem applyPairs_warnings (pairs : List (Text × Text)) {o o' : Outcome}
    (applied : (r.applyPairs before after pairs o).outcome = .ok o')
    (unchanged : o'.changed = false) :
    o'.warnings = o.warnings ++ r.refusals before after o.result pairs := by
  induction pairs generalizing o with
  | nil =>
    cases applied
    simp [refusals]
  | cons pair rest ih =>
    obtain ⟨o₁, first, later⟩ := applyPairs_cons applied
    -- No pair changed the word, so the rest sees the same word and the same exceptions.
    have flag := ((applyPairs_unchanged rest later).2 unchanged).1
    have same : o₁.result = o.result := by
      rcases (applyPair_marks first).2 with ⟨result, _⟩ | ⟨_, marked⟩
      · exact result
      · rw [marked] at flag
        cases flag
    rw [ih later, applyPair_warnings first, same, List.append_assoc]
    unfold refusals
    split
    · simp
    · rw [← List.filterMap_append, List.singleton_append]

end CharacterRule

namespace Rule
variable {rule : Rule} {o : Outcome}

/-- A warning for each pair of the rule whose pattern is refused; none where an exception stands in
the word, and none from a feature rule. -/
def refusals (s : Setting) (word : Text) : Rule → List Text
  | .character r =>
    r.refusals (expandContext s.macros r.before) (expandContext s.macros r.after) word r.pairs
  | .feature _ => []

theorem unchanged_warnings (applied : rule.outcome s word = .ok o) (unchanged : o.changed = false) :
    o.warnings = rule.refusals s word := by
  cases rule with
  | character r =>
    have warned := CharacterRule.applyPairs_warnings r.pairs applied unchanged
    rwa [List.nil_append] at warned
  | feature r =>
    cases applied
    rw [refusals, FeatureRule.apply]
    split <;> rfl

/-- A rule that is broken or unfinished: no target stands in it, or none of its patterns is
accepted; or it is a feature rule without target or replacement. -/
def Idle (s : Setting) : Rule → Prop
  | .character r => r.target.words = [] ∨ ∀ pair ∈ r.pairs, ∃ refused,
      Regex.compile (rulePattern pair.1 (expandContext s.macros r.before)
        (expandContext s.macros r.after)) = .error refused
  | .feature r => r.target = none ∨ r.replacement = none

end Rule

theorem CharacterRule.applyPairs_refused {r : CharacterRule} {before after : Text}
    (pairs : List (Text × Text)) {o o' : Outcome}
    (refused : ∀ pair ∈ pairs, ∃ e, Regex.compile (rulePattern pair.1 before after) = .error e)
    (applied : (r.applyPairs before after pairs o).outcome = .ok o') : o'.changed = o.changed := by
  induction pairs generalizing o with
  | nil => cases applied; rfl
  | cons pair rest ih =>
    obtain ⟨o₁, first, later⟩ := applyPairs_cons applied
    rw [ih (fun p member => refused p (List.mem_cons_of_mem pair member)) later]
    obtain ⟨e, rejected⟩ := refused pair List.mem_cons_self
    obtain ⟨_, rfl⟩ | ⟨_, ⟨f, warning, _, rfl⟩ | ⟨p, compiled, _⟩⟩ := applyPair_ok first
    · rfl
    · rfl
    · rw [rejected] at compiled
      cases compiled

theorem Rule.Idle.unchanged {rule : Rule} {o : Outcome} (idle : rule.Idle s)
    (applied : rule.outcome s word = .ok o) : o.changed = false := by
  cases rule with
  | character r =>
    refine CharacterRule.applyPairs_refused r.pairs ?_ applied
    rcases idle with blank | refused
    · have none : r.pairs = [] := by rw [CharacterRule.pairs, blank]; rfl
      simp [none]
    · exact refused
  | feature r =>
    cases applied
    rw [FeatureRule.apply]
    rcases idle with absent | absent
    · rw [absent]
    · rw [absent]
      cases r.target <;> rfl

/-! ### Striking rules out -/

/-- A rule set in which some rules are marked to be struck out. -/
structure Draft where
  id : Text
  name : Text := []
  order : Int := 0
  rules : List (Rule × Bool)

namespace Draft

def whole (d : Draft) : RuleSet := ⟨d.id, d.name, d.order, d.rules.map Prod.fst⟩

def clean (d : Draft) : RuleSet :=
  ⟨d.id, d.name, d.order, (d.rules.filter fun entry => !entry.2).map Prod.fst⟩

end Draft

def markedInOrder (drafts : List Draft) : List (Rule × Bool) :=
  (sortBy (fun a b => decide (a.order ≤ b.order)) drafts).flatMap Draft.rules

theorem rulesInOrder_whole (drafts : List Draft) :
    (rulesInOrder (drafts.map Draft.whole)).map Prod.snd =
      (markedInOrder drafts).map Prod.fst := by
  rw [rulesInOrder_rules, inOrder, sortBy_map, markedInOrder, List.flatMap_map, List.map_flatMap]
  rfl

theorem rulesInOrder_clean (drafts : List Draft) :
    (rulesInOrder (drafts.map Draft.clean)).map Prod.snd =
      ((markedInOrder drafts).filter fun entry => !entry.2).map Prod.fst := by
  rw [rulesInOrder_rules, inOrder, sortBy_map, markedInOrder, List.flatMap_map,
    List.filter_flatMap, List.map_flatMap]
  rfl

def unmarked (vs : List (Visit × Bool)) : List Visit := (vs.filter fun v => !v.2).map Prod.fst

theorem stepsOf_cons (v : Visit) (vs : List Visit) :
    stepsOf (v :: vs) = if v.outcome.changed then v.step :: stepsOf vs else stepsOf vs := by
  cases changed : v.outcome.changed <;> simp [stepsOf, changed]

/-- Rules that change nothing can be struck out: the others are visited by the same words. -/
theorem visits_unmarked (rules : List (Rule × Bool)) {all : List Visit}
    (visited : visits s (rules.map Prod.fst) word = .ok all) :
    ∃ vs : List (Visit × Bool), vs.map Prod.fst = all ∧
      vs.map (fun v => (v.1.rule, v.2)) = rules ∧
      ((∀ v ∈ vs, v.2 = true → v.1.outcome.changed = false) →
        visits s ((rules.filter fun entry => !entry.2).map Prod.fst) word = .ok (unmarked vs) ∧
        lastResult word (unmarked vs) = lastResult word all ∧
        stepsOf (unmarked vs) = stepsOf all) := by
  induction rules generalizing word all with
  | nil =>
    cases visited
    exact ⟨[], rfl, rfl, fun _ => ⟨rfl, rfl, rfl⟩⟩
  | cons entry rest ih =>
    obtain ⟨rule, mark⟩ := entry
    obtain ⟨o, more, applied, later, rfl⟩ := visits_cons visited
    obtain ⟨vs, whole, marks, struck⟩ := ih later
    refine ⟨(⟨rule, word, o⟩, mark) :: vs, by rw [List.map_cons, whole],
      by rw [List.map_cons, marks], fun idle => ?_⟩
    obtain ⟨kept, result, steps⟩ := struck fun v member => idle v (List.mem_cons_of_mem _ member)
    cases mark with
    | false =>
      refine ⟨?_, result, ?_⟩
      · rw [List.filter_cons_of_pos rfl, List.map_cons, visits, applied]
        simp only [bind, Except.bind, kept]
        rfl
      · rw [stepsOf_cons, ← steps]
        exact stepsOf_cons ⟨rule, word, o⟩ (unmarked vs)
    | true =>
      -- The rest is reached by the word itself, so it is visited as before.
      have unchanged : o.changed = false := idle _ List.mem_cons_self rfl
      have same : o.result = word := Rule.outcome_unchanged applied unchanged
      refine ⟨same ▸ kept, ?_, ?_⟩
      · rw [← same]
        exact result
      · rw [stepsOf_cons, if_neg (by simp [unchanged])]
        exact steps

/-- Of a run that returns, any rules that leave the word that reaches them unchanged may be struck
out; broken and unfinished rules are such rules. The result and the steps stay, and of the warnings
just those of the struck rules go, which are their refused patterns. -/
theorem struck_rules_leave_run (s : Setting) (drafts : List Draft) (word : Text) (c : Change)
    (ended : (runWord s (drafts.map Draft.whole) word).outcome = .ok c) :
    ∃ vs : List (Visit × Bool),
      visits s ((rulesInOrder (drafts.map Draft.whole)).map Prod.snd) word = .ok (vs.map Prod.fst) ∧
      vs.map (fun v => (v.1.rule, v.2)) = markedInOrder drafts ∧
      c.warnings = vs.flatMap (fun v => v.1.outcome.warnings) ∧
      (∀ v ∈ vs, v.1.rule.Idle s → v.1.outcome.changed = false) ∧
      ((∀ v ∈ vs, v.2 = true → v.1.outcome.changed = false) →
        (runWord s (drafts.map Draft.clean) word).outcome =
          .ok ⟨c.result, c.steps, (unmarked vs).flatMap fun v => v.outcome.warnings⟩ ∧
        ∀ v ∈ vs, v.2 = true → v.1.outcome.warnings = v.1.rule.refusals s v.1.word) := by
  rw [runWord, Change.applyRules_outcome, rulesInOrder_whole] at ended
  rw [rulesInOrder_whole]
  cases visited : visits s ((markedInOrder drafts).map Prod.fst) word with
  | error fault => rw [visited] at ended; cases ended
  | ok all =>
    rw [visited] at ended
    cases ended
    obtain ⟨vs, rfl, marks, struck⟩ := visits_unmarked (markedInOrder drafts) visited
    have outcome {v : Visit × Bool} (member : v ∈ vs) :
        v.1.rule.outcome s v.1.word = .ok v.1.outcome :=
      mem_visits _ visited (List.mem_map_of_mem member)
    refine ⟨vs, rfl, marks, ?_, fun v member idle => idle.unchanged (outcome member),
      fun idle => ⟨?_, fun v member mark => ?_⟩⟩
    · simp [Change.record, List.flatMap_map]
    · obtain ⟨kept, result, steps⟩ := struck idle
      rw [runWord, Change.applyRules_outcome, rulesInOrder_clean, kept]
      simp [Except.map, Change.record, result, steps]
    · exact Rule.unchanged_warnings (outcome member) (idle v member mark)

def unfinished : Draft :=
  ⟨['s'], [], 0,
    [(.character ⟨['q'], [], ['p'], ['b'], ['('], [], []⟩, true),
      (.character ⟨['r'], [], ['t'], ['d'], [], [], []⟩, false),
      (.feature ⟨['f'], [], none, none, none, none, []⟩, true)]⟩

theorem struck_rules_leave_run_unfinished :
    (runWord stops [unfinished.whole] "pat").outcome =
        .ok ⟨"pad", [⟨['r'], "t → d", "pat", "pad", none⟩],
          ["Pattern compilation for rule 'q' failed: missing ) at position 7"]⟩ ∧
      ∃ vs : List (Visit × Bool), vs.map (fun v => (v.1.rule, v.2)) = unfinished.rules ∧
        (∀ v ∈ vs, v.2 = true → v.1.outcome.changed = false) ∧
        (runWord stops [unfinished.clean] "pat").outcome =
          .ok ⟨"pad", [⟨['r'], "t → d", "pat", "pad", none⟩],
            (unmarked vs).flatMap fun v => v.outcome.warnings⟩ := by
  have ended : (runWord stops [unfinished.whole] "pat").outcome =
      .ok ⟨"pad", [⟨['r'], "t → d", "pat", "pad", none⟩],
        ["Pattern compilation for rule 'q' failed: missing ) at position 7"]⟩ := by
    decide
  have broken : Regex.compile (rulePattern ['p'] ['('] []) =
      .error (.syntaxFault ⟨.missing ')', 7⟩) := by
    decide
  obtain ⟨vs, _, marks, _, idle, struck⟩ := struck_rules_leave_run stops [unfinished] "pat" _ ended
  have rules : markedInOrder [unfinished] = unfinished.rules := List.append_nil _
  rw [rules] at marks
  have unchanged : ∀ v ∈ vs, v.2 = true → v.1.outcome.changed = false := by
    intro v member mark
    refine idle v member ?_
    have entry : (v.1.rule, v.2) ∈ unfinished.rules := marks ▸ List.mem_map_of_mem member
    simp only [unfinished, List.mem_cons, List.not_mem_nil, or_false, Prod.mk.injEq, mark] at entry
    rcases entry with ⟨rule, _⟩ | ⟨_, unmarked⟩ | ⟨rule, _⟩
    · rw [rule]
      refine Or.inr fun pair single => ?_
      obtain rfl := List.mem_singleton.mp single
      exact ⟨_, broken⟩
    · cases unmarked
    · rw [rule]
      exact Or.inl rfl
  exact ⟨ended, vs, marks, unchanged, (struck unchanged).1⟩

end SoundLaw
