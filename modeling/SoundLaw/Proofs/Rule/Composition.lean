import SoundLaw.Proofs.Rule.Trace
import SoundLaw.Proofs.Journal

/-!
Runs put together. Only the order numbers of rule sets and the row of those that share one decide a
run; and a run over sets whose order numbers lie below those of others is followed by the run over
the others, with its changes, its warnings and its events before theirs.
-/
namespace SoundLaw
variable {s : Setting} {sets others sorted sorted' : List RuleSet}

/-! ### Sets in another row -/

/-- The same sets in another row, except that those of equal order are in the same row. -/
structure Rearranged (sets others : List RuleSet) : Prop where
  permuted : sets.Perm others
  ties : ∀ order, sets.filter (·.order = order) = others.filter (·.order = order)

theorem Ordered.unique (first : Ordered sets sorted) (second : Ordered sets sorted') :
    sorted = sorted' := by
  refine @ascending_eq RuleSet (fun a b => decide (a.order ≤ b.order)) order_total _ _ ?_ ?_ ?_
  · simpa using first.ascending
  · simpa using second.ascending
  · intro a
    have same : tied (fun a b : RuleSet => decide (a.order ≤ b.order)) a =
        fun b : RuleSet => decide (b.order = a.order) := by
      funext b
      rw [tied, ← Bool.decide_and]
      exact decide_eq_decide.mpr (by omega)
    rw [same, first.stable, second.stable]

theorem inOrder_rearranged (rearranged : Rearranged sets others) : inOrder sets = inOrder others := by
  have ordered := inOrder_ordered others
  refine (inOrder_ordered sets).unique ⟨ordered.ascending, fun order => ?_⟩
  rw [ordered.stable, rearranged.ties]

theorem runWord_rearranged (rearranged : Rearranged sets others) (word : Text) :
    runWord s sets word = runWord s others word := by
  rw [runWord, runWord, rulesInOrder, rulesInOrder, inOrder_rearranged rearranged]

theorem rearranged_inOrder (sets : List RuleSet) : Rearranged (inOrder sets) sets :=
  ⟨sortBy_perm _ sets, (inOrder_ordered sets).stable⟩

theorem inOrder_append (below : ∀ a ∈ sets, ∀ b ∈ others, a.order ≤ b.order) :
    inOrder (sets ++ others) = inOrder sets ++ inOrder others := by
  have first := inOrder_ordered sets
  have second := inOrder_ordered others
  refine (inOrder_ordered (sets ++ others)).unique ⟨?_, fun order => ?_⟩
  · refine List.pairwise_append.mpr ⟨first.ascending, second.ascending, fun a ha b hb => ?_⟩
    exact below a ((mem_sortBy _).mp ha) b ((mem_sortBy _).mp hb)
  · rw [List.filter_append, List.filter_append, first.stable, second.stable]

/-! ### Runs one after the other -/

namespace Change
variable (c d : Change)

def followedBy : Change := ⟨d.result, c.steps ++ d.steps, c.warnings ++ d.warnings⟩

theorem followedBy_start : c.followedBy ⟨c.result, [], []⟩ = c := by
  simp [followedBy]

theorem add_followedBy (rule : Rule) (o : Outcome) :
    (c.followedBy d).add rule o = c.followedBy (d.add rule o) := by
  cases changed : o.changed <;> simp [add, followedBy, changed]

/-- What came before a rule changes neither what the rule does nor what it tells. -/
theorem applyRule_followedBy (ruleSet : Text) (rule : Rule) :
    (c.followedBy d).applyRule s ruleSet rule = c.followedBy <$> d.applyRule s ruleSet rule := by
  have reached : (c.followedBy d).result = d.result := rfl
  rw [applyRule, applyRule, map_bind, reached]
  refine bind_congr fun o => ?_
  split <;> simp [add_followedBy]

theorem applyRules_followedBy (rules : List (Text × Rule)) :
    applyRules s rules (c.followedBy d) = c.followedBy <$> applyRules s rules d := by
  induction rules generalizing d with
  | nil => simp [applyRules]
  | cons entry rest ih =>
    obtain ⟨ruleSet, rule⟩ := entry
    rw [applyRules, applyRules, applyRule_followedBy, bind_map_left, map_bind]
    simp only [ih]

theorem applyRules_append (first second : List (Text × Rule)) :
    applyRules s (first ++ second) c = applyRules s first c >>= applyRules s second := by
  induction first generalizing c with
  | nil => simp [applyRules]
  | cons entry rest ih =>
    obtain ⟨ruleSet, rule⟩ := entry
    rw [List.cons_append, applyRules, applyRules, bind_assoc]
    simp only [ih]

end Change

theorem rulesInOrder_append (below : ∀ a ∈ sets, ∀ b ∈ others, a.order ≤ b.order) :
    rulesInOrder (sets ++ others) = rulesInOrder sets ++ rulesInOrder others := by
  rw [rulesInOrder, inOrder_append below, List.flatMap_append, ← rulesInOrder, ← rulesInOrder]

/-- A run does not depend on the row of the sets beyond ties, in its result, its steps, its warnings
and its events; and sets of lower order followed by others run one after the other. -/
theorem runs_compose (s : Setting) (word : Text) :
    (∀ sets others, Rearranged sets others → runWord s sets word = runWord s others word) ∧
      ∀ sets others, (∀ a ∈ sets, ∀ b ∈ others, a.order ≤ b.order) →
        runWord s (sets ++ others) word = do
          let c ← runWord s sets word
          let d ← runWord s others c.result
          return ⟨d.result, c.steps ++ d.steps, c.warnings ++ d.warnings⟩ := by
  refine ⟨fun sets others rearranged => runWord_rearranged rearranged word, ?_⟩
  intro sets others below
  -- The second run starts from the change of the first, not from an empty one.
  have later (c : Change) : Change.applyRules s (rulesInOrder others) c =
      c.followedBy <$> runWord s others c.result := by
    rw [runWord, ← Change.applyRules_followedBy, Change.followedBy_start]
  rw [runWord, rulesInOrder_append below, Change.applyRules_append, ← runWord]
  refine bind_congr fun c => ?_
  rw [later, map_eq_pure_bind]
  rfl

/-- A set that takes back what the first to apply did, and shares its order. -/
def hardening : RuleSet := ⟨['3'], [], 1, [.character ⟨['h'], [], ['b'], ['p'], [], [], []⟩]⟩

theorem runs_compose_lenition :
    Rearranged (lenition ++ [hardening]) (lenition.reverse ++ [hardening]) ∧
      runWord stops (lenition ++ [hardening]) "pa" =
        runWord stops (lenition.reverse ++ [hardening]) "pa" ∧
      (∀ a ∈ [hardening], ∀ b ∈ lenition.take 1, a.order ≤ b.order) ∧
      runWord stops ([hardening] ++ lenition.take 1) "ba" = do
        let c ← runWord stops [hardening] "ba"
        let d ← runWord stops (lenition.take 1) c.result
        return ⟨d.result, c.steps ++ d.steps, c.warnings ++ d.warnings⟩ := by
  have rearranged : Rearranged (lenition ++ [hardening]) (lenition.reverse ++ [hardening]) := by
    refine ⟨(List.reverse_perm lenition).symm.append_right _, fun order => ?_⟩
    by_cases first : order = 1
    · subst first; rfl
    · by_cases second : order = 2
      · subst second; rfl
      · simp [lenition, hardening, Ne.symm first, Ne.symm second]
  have below : ∀ a ∈ [hardening], ∀ b ∈ lenition.take 1, a.order ≤ b.order := by decide
  exact ⟨rearranged, (runs_compose stops "pa").1 _ _ rearranged, below,
    (runs_compose stops "ba").2 _ _ below⟩

end SoundLaw
