import SoundLaw.Rule.Application
import Mathlib.Data.List.Infix

/-!
The pairs of a character rule: what they are, and what one of them does to the word in each of its
cases.
-/
namespace SoundLaw

theorem occurs_iff_infix (part t : Text) : Text.occurs part t = true ↔ part <:+: t := by
  induction t with
  | nil => simp [Text.occurs]
  | cons c rest ih => simp [Text.occurs, List.infix_cons_iff, ih]

theorem hasException_iff (word : Text) (exceptions : List Text) :
    hasException word exceptions = true ↔ ∃ e ∈ exceptions, e ≠ [] ∧ e <:+: word := by
  simp [hasException, occurs_iff_infix]

namespace CharacterRule

/-- Each target with the replacement at its place, or with the last one where there are fewer, or
with nothing where there is none. -/
def pairing (r : CharacterRule) : List (Text × Text) :=
  let replacements := r.replacement.words
  r.target.words.mapIdx fun i target =>
    (target, replacements[i]?.getD (replacements.getLast?.getD []))

theorem pairUp_eq (last : Text) (targets replacements : List Text) :
    pairUp last targets replacements = targets.mapIdx fun i target =>
      (target, replacements[i]?.getD (replacements.getLast?.getD last)) := by
  induction targets generalizing last replacements with
  | nil => rfl
  | cons target targets ih =>
    cases replacements with
    | nil => simp [pairUp, ih, List.mapIdx_cons]
    | cons new replacements => simp [pairUp, ih, List.mapIdx_cons, List.getLast?_cons]

theorem pairs_eq_pairing (r : CharacterRule) : r.pairs = r.pairing := pairUp_eq [] _ _

theorem target_ne_nil {r : CharacterRule} {pair : Text × Text} (member : pair ∈ r.pairs) :
    pair.1 ≠ [] := by
  rw [pairs_eq_pairing, pairing, List.mem_mapIdx] at member
  obtain ⟨i, short, rfl⟩ := member
  have word := List.getElem_mem short
  simp only [Text.words, List.mem_filter, Bool.not_eq_true', List.isEmpty_eq_false_iff] at word
  exact word.2

variable {r : CharacterRule} {before after : Text} {o : Outcome} {pair : Text × Text}

theorem applyPair_excepted (excepted : hasException o.result r.exceptions = true) :
    r.applyPair before after o pair = ⟨[], .ok o⟩ := by
  rw [applyPair, if_pos excepted]
  rfl

theorem applyPair_compiled {p : Regex.Pattern}
    (free : ¬ hasException o.result r.exceptions = true)
    (compiled : Regex.compile (rulePattern pair.1 before after) = .ok p) :
    r.applyPair before after o pair =
      ⟨[], .ok (if Regex.replaceAll p pair.2 o.result = o.result then o
        else { o with result := Regex.replaceAll p pair.2 o.result, changed := true })⟩ := by
  rw [applyPair, if_neg free]
  simp only [compiled]
  rfl

theorem applyPair_refused {f : Regex.SyntaxFault}
    (free : ¬ hasException o.result r.exceptions = true)
    (refused : Regex.compile (rulePattern pair.1 before after) = .error (.syntaxFault f)) :
    r.applyPair before after o pair =
      ⟨[.patternRefused r.id (rulePattern pair.1 before after)
          (f.message (rulePattern pair.1 before after))],
        .ok { o with warnings := o.warnings ++ [(Problem.malformedPattern
          (rulePattern pair.1 before after) r.id
          (f.message (rulePattern pair.1 before after))).message] }⟩ := by
  rw [applyPair, if_neg free]
  simp only [refused]

theorem applyPair_conflicting {c : Regex.FlagConflict}
    (free : ¬ hasException o.result r.exceptions = true)
    (refused : Regex.compile (rulePattern pair.1 before after) = .error (.conflictingFlags c)) :
    r.applyPair before after o pair = ⟨[], .error (.conflictingFlags c)⟩ := by
  rw [applyPair, if_neg free]
  simp only [refused]
  rfl

/-- All that a pair can do without a fault: nothing where an exception stands in the word, a
warning where the pattern is refused, and otherwise what the pattern replaces. -/
theorem applyPair_ok {o' : Outcome} (applied : (r.applyPair before after o pair).outcome = .ok o') :
    hasException o.result r.exceptions = true ∧ o' = o ∨
      ¬ hasException o.result r.exceptions = true ∧
        ((∃ f warning, Regex.compile (rulePattern pair.1 before after) = .error (.syntaxFault f) ∧
            o' = { o with warnings := o.warnings ++ [warning] }) ∨
          ∃ p, Regex.compile (rulePattern pair.1 before after) = .ok p ∧
            o' = if Regex.replaceAll p pair.2 o.result = o.result then o
              else { o with result := Regex.replaceAll p pair.2 o.result, changed := true }) := by
  by_cases excepted : hasException o.result r.exceptions = true
  · rw [applyPair_excepted excepted] at applied
    cases applied
    exact Or.inl ⟨excepted, rfl⟩
  · refine Or.inr ⟨excepted, ?_⟩
    cases compiled : Regex.compile (rulePattern pair.1 before after) with
    | ok p =>
      rw [applyPair_compiled excepted compiled] at applied
      cases applied
      exact Or.inr ⟨p, rfl, rfl⟩
    | error refused =>
      cases refused with
      | syntaxFault f =>
        rw [applyPair_refused excepted compiled] at applied
        cases applied
        exact Or.inl ⟨f, _, rfl, rfl⟩
      | conflictingFlags c =>
        rw [applyPair_conflicting excepted compiled] at applied
        cases applied

theorem applyPair_marks {o' : Outcome}
    (applied : (r.applyPair before after o pair).outcome = .ok o') :
    o'.details = o.details ∧
      (o'.result = o.result ∧ o'.changed = o.changed ∨
        o'.result ≠ o.result ∧ o'.changed = true) := by
  obtain ⟨_, rfl⟩ | ⟨_, ⟨f, warning, _, rfl⟩ | ⟨p, _, rfl⟩⟩ := applyPair_ok applied
  · exact ⟨rfl, Or.inl ⟨rfl, rfl⟩⟩
  · exact ⟨rfl, Or.inl ⟨rfl, rfl⟩⟩
  · split
    · exact ⟨rfl, Or.inl ⟨rfl, rfl⟩⟩
    · rename_i altered
      exact ⟨rfl, Or.inr ⟨altered, rfl⟩⟩

theorem applyPairs_cons {rest : List (Text × Text)} {o' : Outcome}
    (applied : (r.applyPairs before after (pair :: rest) o).outcome = .ok o') :
    ∃ o₁, (r.applyPair before after o pair).outcome = .ok o₁ ∧
      (r.applyPairs before after rest o₁).outcome = .ok o' := by
  rw [applyPairs, Journal.outcome_bind] at applied
  cases first : (r.applyPair before after o pair).outcome with
  | error e => rw [first] at applied; cases applied
  | ok o₁ =>
    rw [first] at applied
    exact ⟨o₁, rfl, applied⟩

theorem applyPairs_unchanged (pairs : List (Text × Text)) {o o' : Outcome}
    (applied : (r.applyPairs before after pairs o).outcome = .ok o') :
    o'.details = o.details ∧ (o'.changed = false → o.changed = false ∧ o'.result = o.result) := by
  induction pairs generalizing o with
  | nil =>
    cases applied
    exact ⟨rfl, fun unchanged => ⟨unchanged, rfl⟩⟩
  | cons pair rest ih =>
    obtain ⟨o₁, first, later⟩ := applyPairs_cons applied
    obtain ⟨details, rest_unchanged⟩ := ih later
    obtain ⟨details₁, marks⟩ := applyPair_marks first
    refine ⟨details.trans details₁, ?_⟩
    intro unchanged
    obtain ⟨flag, result⟩ := rest_unchanged unchanged
    rcases marks with ⟨stays, flag₁⟩ | ⟨_, flag₁⟩
    · exact ⟨flag₁.symm.trans flag, result.trans stays⟩
    · rw [flag₁] at flag
      cases flag

end CharacterRule
end SoundLaw
