import SoundLaw.Proofs.Journal
import SoundLaw.Proofs.Rule.Pair
import SoundLaw.Proofs.Rule.Tokens

/-!
Exceptions veto rules. An exception that stands in the word stops a rule of either mode, whatever
its pairs and contexts are; and one that comes to stand in it while a rule is at work stops all
pairs that are left.
-/
namespace SoundLaw
variable {word : Text}

namespace CharacterRule
variable {r : CharacterRule} {before after : Text} {o : Outcome}

def applySome (r : CharacterRule) (macros : Macros) (word : Text) (pairs : List (Text × Text)) :
    Applied Outcome :=
  r.applyPairs (expandContext macros r.before) (expandContext macros r.after) pairs
    ⟨word, false, [], []⟩

theorem applyPairs_append (done more : List (Text × Text)) (o : Outcome) :
    r.applyPairs before after (done ++ more) o =
      r.applyPairs before after done o >>= r.applyPairs before after more := by
  induction done generalizing o with
  | nil => rfl
  | cons pair rest ih =>
    rw [List.cons_append, applyPairs, applyPairs, bind_assoc]
    congr 1
    funext o'
    exact ih o'

/-- The exception still stands in the word after each pair, for no pair gets at the word. -/
theorem applyPairs_excepted (excepted : hasException o.result r.exceptions = true)
    (pairs : List (Text × Text)) : r.applyPairs before after pairs o = ⟨[], .ok o⟩ := by
  induction pairs with
  | nil => rfl
  | cons pair rest ih =>
    rw [applyPairs, applyPair_excepted excepted, Journal.bind_ok rfl, ih]
    rfl

theorem applyPairs_stopped {done more : List (Text × Text)} {start : Outcome}
    (reached : (r.applyPairs before after done start).outcome = .ok o)
    (excepted : hasException o.result r.exceptions = true) :
    r.applyPairs before after (done ++ more) start = r.applyPairs before after done start := by
  rw [applyPairs_append, Journal.bind_ok reached, applyPairs_excepted excepted, List.append_nil,
    ← reached]

end CharacterRule

theorem FeatureRule.apply_excepted {r : FeatureRule}
    (excepted : hasException word r.exceptions = true) (m : Model) (inventory : List Text) :
    r.apply m inventory word = ⟨word, false, [], []⟩ := by
  unfold apply
  cases r.target with
  | none => rfl
  | some target =>
    cases r.replacement with
    | none => rfl
    | some replacement =>
      have unaltered : changes replacement (tokensBefore m inventory word)
          (tokensBefore m inventory word) = [] :=
        (changes_eq_nil_iff replacement rfl).mpr rfl
      simp only [excepted, ↓reduceIte]
      rw [← tokensBefore, unaltered, spell_tokensBefore]
      rfl

/-- A rule with an exception in the word returns the word, tells of nothing, reports no change and
warns of nothing. In a character rule an exception that stands in the word after some pairs leaves
it to what they did: the pairs after them alter nothing, tell of nothing and warn of nothing. -/
theorem exception_vetoes_rule (m : Model) (macros : Macros) (inventory : List Text) (word : Text) :
    (∀ rule : Rule, (∃ e ∈ rule.exceptions, e ≠ [] ∧ e <:+: word) →
      rule.apply m macros inventory word = ⟨[], .ok ⟨word, false, [], []⟩⟩) ∧
    ∀ (r : CharacterRule) done o, (r.applySome macros word done).outcome = .ok o →
      (∃ e ∈ r.exceptions, e ≠ [] ∧ e <:+: o.result) → ∀ more,
        r.applySome macros word (done ++ more) = r.applySome macros word done ∧
          (r.pairs = done ++ more → r.apply macros word = r.applySome macros word done) := by
  constructor
  · intro rule stands
    have excepted := (hasException_iff word rule.exceptions).mpr stands
    cases rule with
    | character r => exact CharacterRule.applyPairs_excepted excepted r.pairs
    | feature r => exact congrArg pure (FeatureRule.apply_excepted excepted m inventory)
  · intro r done o reached stands more
    have stopped : r.applySome macros word (done ++ more) = r.applySome macros word done :=
      CharacterRule.applyPairs_stopped reached ((hasException_iff _ _).mpr stands)
    refine ⟨stopped, fun all => ?_⟩
    rw [← stopped, ← all]
    rfl

/-- The first pair makes an exception of the rule out of others. -/
def selfStopping : CharacterRule where
  id := ['s']
  target := "p t"
  replacement := "b d"
  after := "V"
  exceptions := ["ba", "x("]

def sparing : FeatureRule :=
  ⟨['v'], [], some ⟨["lax"], [], by decide⟩, some ⟨["tense"], ["lax"]⟩, none, none, ["bb"]⟩

theorem exception_vetoes_rule_stops :
    ((∃ e ∈ (Rule.character selfStopping).exceptions, e ≠ [] ∧ e <:+: "atx(pa".toList) ∧
      (Rule.character selfStopping).apply .empty [("V", ["a"])] [] "atx(pa" =
        ⟨[], .ok ⟨"atx(pa", false, [], []⟩⟩) ∧
    ((∃ e ∈ (Rule.feature sparing).exceptions, e ≠ [] ∧ e <:+: "abba".toList) ∧
      (Rule.feature sparing).apply (.ofList [("b", ["lax"]), ("p", ["tense"])]) [] []
        "abba" = ⟨[], .ok ⟨"abba", false, [], []⟩⟩) ∧
    (selfStopping.applySome [("V", ["a"])] "pata" [("p", "b")]).outcome =
        .ok ⟨"bata", true, [], []⟩ ∧
      selfStopping.apply [("V", ["a"])] "pata" =
        selfStopping.applySome [("V", ["a"])] "pata" [("p", "b")] := by
  have listed : ∃ e ∈ (Rule.character selfStopping).exceptions, e ≠ [] ∧
      e <:+: "atx(pa".toList := by
    decide
  have spared : ∃ e ∈ (Rule.feature sparing).exceptions, e ≠ [] ∧ e <:+: "abba".toList := by
    decide
  have reached : (selfStopping.applySome [("V", ["a"])] "pata" [("p", "b")]).outcome =
      .ok ⟨"bata", true, [], []⟩ := by
    decide
  refine ⟨⟨listed, (exception_vetoes_rule _ _ [] _).1 _ listed⟩,
    ⟨spared, (exception_vetoes_rule _ [] [] _).1 _ spared⟩, reached, ?_⟩
  exact ((exception_vetoes_rule .empty _ [] _).2 _ _ _ reached (by decide) [("t", "d")]).2
    (by decide)

end SoundLaw
