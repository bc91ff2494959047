import SoundLaw.Proofs.Rule.Trace

/-!
When a rule counts as a change. The mark of a rule is set on the way, by a pair that alters the
word or a token that shifts, and never compared with the word in the end. So a rule that moves the
word and returns it as it was leaves a step that goes nowhere, and only such a rule does.
-/
namespace SoundLaw

namespace CharacterRule
variable {r : CharacterRule} {before after : Text}

def wordAfter (r : CharacterRule) (before after word : Text) (pair : Text × Text) : Text :=
  match (r.applyPair before after ⟨word, false, [], []⟩ pair).outcome with
  | .ok o => o.result
  | .error _ => word

/-- Whether some pair alters the word that reaches it. -/
def pairsMove (r : CharacterRule) (before after : Text) : List (Text × Text) → Text → Bool
  | [], _ => false
  | pair :: rest, word =>
    let next := r.wordAfter before after word pair
    next != word || pairsMove r before after rest next

theorem applyPair_wordAfter {o o' : Outcome} {pair : Text × Text}
    (applied : (r.applyPair before after o pair).outcome = .ok o') :
    o'.result = r.wordAfter before after o.result pair := by
  unfold wordAfter
  obtain ⟨excepted, rfl⟩ | ⟨free, ⟨f, warning, refused, rfl⟩ | ⟨p, compiled, rfl⟩⟩ :=
    applyPair_ok applied
  · rw [applyPair_excepted (o := ⟨o'.result, false, [], []⟩) excepted]
  · rw [applyPair_refused (o := ⟨o.result, false, [], []⟩) free refused]
  · rw [applyPair_compiled (o := ⟨o.result, false, [], []⟩) free compiled]
    dsimp only
    split <;> rfl

theorem applyPairs_changed_iff (pairs : List (Text × Text)) {o o' : Outcome}
    (applied : (r.applyPairs before after pairs o).outcome = .ok o') :
    o'.changed = true ↔ o.changed = true ∨ r.pairsMove before after pairs o.result = true := by
  induction pairs generalizing o with
  | nil =>
    cases applied
    simp [pairsMove]
  | cons pair rest ih =>
    obtain ⟨o₁, first, later⟩ := applyPairs_cons applied
    rw [ih later, pairsMove, ← applyPair_wordAfter first]
    rcases (applyPair_marks first).2 with ⟨result, flag⟩ | ⟨altered, flag⟩
    · simp [result, flag]
    · simp [altered, flag]

end CharacterRule

namespace Rule
variable {s : Setting} {word : Text} {rule : Rule} {o : Outcome}

def moves (s : Setting) (word : Text) : Rule → Bool
  | .character r =>
    r.pairsMove (expandContext s.macros r.before) (expandContext s.macros r.after) r.pairs word
  | .feature r =>
    r.tokensAfter s.model s.inventory word != FeatureRule.tokensBefore s.model s.inventory word

/-- A rule that moves the word and makes of it what it was. -/
def Returns (s : Setting) (word : Text) (rule : Rule) : Prop :=
  rule.moves s word = true ∧ rule.result s word = .ok word

theorem changed_iff_moves (applied : rule.outcome s word = .ok o) :
    o.changed = true ↔ rule.moves s word = true := by
  cases rule with
  | character r =>
    have marked := CharacterRule.applyPairs_changed_iff r.pairs applied
    simpa only [moves, Bool.false_eq_true, false_or] using marked
  | feature r =>
    cases applied
    rw [FeatureRule.apply_changed_iff, moves, bne_iff_ne]

theorem returns_iff (applied : rule.outcome s word = .ok o) :
    rule.Returns s word ↔ o.changed = true ∧ o.result = word := by
  rw [Returns, changed_iff_moves applied, result, applied]
  simp [Except.map]

/-- A word that differs is always marked; the mark is right unless the rule returns the word. -/
theorem mark_right_iff (applied : rule.outcome s word = .ok o) :
    (o.result ≠ word → o.changed = true) ∧
      ((o.changed = true ↔ o.result ≠ word) ↔ ¬ rule.Returns s word) := by
  have marked : o.result ≠ word → o.changed = true := by
    intro altered
    by_contra unchanged
    exact altered (outcome_unchanged applied (Bool.not_eq_true _ ▸ unchanged))
  refine ⟨marked, ?_⟩
  rw [returns_iff applied]
  constructor
  · rintro right ⟨changed, same⟩
    exact right.mp changed same
  · intro stays
    exact ⟨fun changed same => stays ⟨changed, same⟩, marked⟩

end Rule

/-- A rule marks a word just where it alters it, unless it returns it; and the steps of a run all
lead to another word unless a rule of the run returns the word that reaches it. -/
theorem steps_move_iff (s : Setting) :
    (∀ rule word o, Rule.outcome s word rule = .ok o →
      (o.result ≠ word → o.changed = true) ∧
        ((o.changed = true ↔ o.result ≠ word) ↔ ¬ rule.Returns s word)) ∧
      ∀ sets word c, (runWord s sets word).outcome = .ok c →
        ∃ vs, visits s ((rulesInOrder sets).map Prod.snd) word = .ok vs ∧
          ((∀ step ∈ c.steps, step.before ≠ step.after) ↔
            ∀ v ∈ vs, ¬ v.rule.Returns s v.word) := by
  refine ⟨fun rule word o applied => Rule.mark_right_iff applied, ?_⟩
  intro sets word c ended
  rw [runWord, Change.applyRules_outcome] at ended
  cases visited : visits s ((rulesInOrder sets).map Prod.snd) word with
  | error e => rw [visited] at ended; cases ended
  | ok vs =>
    rw [visited] at ended
    cases ended
    refine ⟨vs, rfl, ?_⟩
    constructor
    · intro altered v member returns
      obtain ⟨changed, same⟩ := (Rule.returns_iff (mem_visits _ visited member)).mp returns
      refine altered v.step ?_ same.symm
      exact List.mem_map.mpr ⟨v, List.mem_filter.mpr ⟨member, changed⟩, rfl⟩
    · intro stays step member same
      obtain ⟨v, marked, rfl⟩ := List.mem_map.mp member
      obtain ⟨visit, changed⟩ := List.mem_filter.mp marked
      exact stays v visit
        ((Rule.returns_iff (mem_visits _ visited visit)).mpr ⟨changed, same.symm⟩)

def swap : RuleSet := ⟨['s'], ['n'], 0, [.character ⟨['r'], [], "a b", "b a", [], [], []⟩]⟩

theorem steps_move_iff_swap :
    ∃ c, (runWord ⟨.empty, [], []⟩ [swap] "a").outcome = .ok c ∧
      ¬ ∀ step ∈ c.steps, step.before ≠ step.after := by
  have ended : (runWord ⟨.empty, [], []⟩ [swap] "a").outcome =
      .ok ⟨"a", [⟨['r'], "a b → b a", "a", "a", none⟩], []⟩ := by
    decide
  obtain ⟨vs, visited, steps⟩ := (steps_move_iff ⟨.empty, [], []⟩).2 [swap] "a" _ ended
  refine ⟨_, ended, fun altered => ?_⟩
  have stays := steps.mp altered
  cases visited
  exact stays _ List.mem_cons_self ⟨by decide, by decide⟩

theorem swap_leaves_trace :
    ¬ ∀ s sets word c, (runWord s sets word).outcome = .ok c →
      ∀ step ∈ c.steps, step.before ≠ step.after := by
  intro altered
  exact altered ⟨.empty, [], []⟩ [swap] "a"
    ⟨"a", [⟨['r'], "a b → b a", "a", "a", none⟩], []⟩ (by decide) _ List.mem_cons_self rfl

end SoundLaw
