import SoundLaw.Proofs.Rule.Pair
import SoundLaw.Proofs.Rule.Pattern
import SoundLaw.Proofs.Regex.Conditions
import SoundLaw.Proofs.Regex.Rewriting

/-!
Rules with contexts of any form. As long as each context is closed in itself, it is read as a
condition on the place before or after the target, so nothing but the target is ever replaced.
-/
namespace SoundLaw
open Regex

namespace Regex

/-- Whether a text asks for what moves the ends of groups or of matches and the reader does not
know: verbose mode, the sets of version 1, or a match that begins later than it was found. -/
def asksUnknown : Text → Bool
  | '\\' :: c :: rest => c = 'K' || asksUnknown rest
  | '(' :: '?' :: rest =>
    let flags := rest.takeWhile Char.isAlphanum
    flags.contains 'x' || Text.occurs ['V', '1'] flags || asksUnknown rest
  | _ :: rest => asksUnknown rest
  | [] => false

/-- What is no fault of the text comes of a reading of all of it. -/
theorem compileWith_read {t : Text} {fuel : Nat} {w : WholeFlags} {result : Except Refused Pattern}
    (ended : compileWith t fuel w = result) (whole : ∀ f, result ≠ .error (.syntaxFault f)) :
    ∃ w r s, Read.whole w t = .ok (r, s) ∧
      ((∃ c, result = .error (.conflictingFlags c) ∧ r.2.conflict? = some c) ∨
        result = .ok (r.1.resolve s.names)) := by
  induction fuel generalizing w with
  | zero => exact absurd ended.symm (whole _)
  | succ fuel ih =>
    rw [compileWith] at ended
    cases read : Read.whole w t with
    | error stop =>
      rw [read] at ended
      cases stop with
      | restart w => exact ih ended
      | fault f => exact absurd ended.symm (whole f)
    | ok pair =>
      obtain ⟨⟨p, flags⟩, s⟩ := pair
      rw [read] at ended
      refine ⟨w, _, s, read, ?_⟩
      dsimp only at ended
      split at ended
      · exact absurd ended.symm (whole _)
      · split at ended
        · rename_i c conflict
          exact Or.inl ⟨c, ended.symm, conflict⟩
        · split at ended
          · exact absurd ended.symm (whole _)
          · exact Or.inr ended.symm

theorem WholeFlags.conflict_versions {w : WholeFlags} {c : FlagConflict}
    (conflict : w.flags.conflict? = some c) : c = .versions := by
  have none : ([Flag.ascii, .locale, .unicode].filter fun f => decide (f ∈ w.flags)) = [] := by
    rw [List.filter_eq_nil_iff]
    intro f kind member
    have isGlobal := w.whole f (of_decide_eq_true member)
    simp only [List.mem_cons, List.not_mem_nil, or_false] at kind
    rcases kind with rfl | rfl | rfl <;> cases isGlobal
  unfold Flags.conflict? at conflict
  rw [none] at conflict
  dsimp only at conflict
  split at conflict
  · exact (Option.some.inj conflict).symm
  · cases conflict

theorem resolve_ofList (names : List (Text × Nat)) (ps : List Pattern) :
    (Pattern.ofList ps).resolve names = .ofList (ps.map (Pattern.resolve names)) := by
  induction ps with
  | nil => rfl
  | cons p ps ih =>
    cases ps with
    | nil => rfl
    | cons q ps => exact congrArg (Pattern.seq (p.resolve names)) ih

theorem Read.Between.resolve {letters : Text} {p : Pattern} (between : Read.Between letters p)
    (names : List (Text × Nat)) : Read.Between letters (p.resolve names) := by
  obtain ⟨first, last, hf, hl, rfl⟩ := between
  refine ⟨_, _, hf.resolve names, hl.resolve names, ?_⟩
  rw [resolve_ofList, List.map_append, List.map_append, List.map_map]
  rfl

theorem Read.Between.replaceAll_rewritten {letters : Text} {p : Pattern}
    (between : Read.Between letters p) (nonempty : letters ≠ []) (new t : Text) :
    Rewritten letters new t (replaceAll p new t) := by
  obtain ⟨first, last, hf, hl, rfl⟩ := between
  exact replaceFrom_rewritten nonempty
    (fun _ _ _ _ found => matchLength_letters hf.still hl.still found) (Nat.zero_le t.length)

end Regex

theorem readsCondition_behindText (flags : Flags) {context : Text} (closed : Closed context) :
    Read.ReadsCondition flags (behindText context) := by
  unfold behindText
  split
  · exact (Read.reads_caret flags).condition (Condition.edge _)
  · split
    · exact (Read.reads_nil flags).condition Condition.none
    · exact Read.readsCondition_behind flags closed

theorem readsCondition_aheadText (flags : Flags) {context : Text} (closed : Closed context) :
    Read.ReadsCondition flags (aheadText context) := by
  unfold aheadText
  split
  · exact (Read.reads_finish flags).condition (Condition.edge _)
  · split
    · exact (Read.reads_nil flags).condition Condition.none
    · exact Read.readsCondition_ahead flags closed

section
variable {target before after : Text}

theorem read_rulePattern (hb : Closed before) (ha : Closed after) {w : WholeFlags}
    {r : Pattern × Flags} {s : Regex.Source}
    (read : Read.whole w (rulePattern target before after) = .ok (r, s)) :
    Read.Between target r.1 ∧ r.2 = w.flags := by
  rw [rulePattern_eq] at read
  exact Read.whole_between (readsCondition_behindText _ hb) (readsCondition_aheadText _ ha) read

/-- The pattern of a target between closed contexts replaces only the target. -/
theorem rulePattern_rewrites (hb : Closed before) (ha : Closed after) {p : Pattern}
    (nonempty : target ≠ [])
    (compiled : Regex.compile (rulePattern target before after) = .ok p) (new t : Text) :
    Rewritten target new t (replaceAll p new t) := by
  obtain ⟨w, r, s, read, ⟨c, refused, _⟩ | same⟩ := compileWith_read compiled (by simp)
  · cases refused
  · cases same
    have between := (read_rulePattern hb ha read).1
    exact (between.resolve s.names).replaceAll_rewritten nonempty new t

/-- Kinds of characters that closed contexts ask for count inside of these alone. -/
theorem rulePattern_conflict (hb : Closed before) (ha : Closed after) {c : FlagConflict}
    (refused : Regex.compile (rulePattern target before after) = .error (.conflictingFlags c)) :
    c = .versions := by
  obtain ⟨w, r, s, read, ⟨c, same, conflict⟩ | compiled⟩ := compileWith_read refused (by simp)
  · cases same
    rw [(read_rulePattern hb ha read).2] at conflict
    exact WholeFlags.conflict_versions conflict
  · cases compiled

end

/-! ### What a rule replaces -/

namespace CharacterRule

def patternOf (r : CharacterRule) (macros : Macros) (pair : Text × Text) : Text :=
  rulePattern pair.1 (expandContext macros r.before) (expandContext macros r.after)

def applyOne (r : CharacterRule) (macros : Macros) (o : Outcome) (pair : Text × Text) :
    Applied Outcome :=
  r.applyPair (expandContext macros r.before) (expandContext macros r.after) o pair

/-- Some places of each target hold its replacement instead, pair after pair. -/
inductive PairsRewrite : List (Text × Text) → Text → Text → Prop where
  | nil (word : Text) : PairsRewrite [] word word
  | cons {pair : Text × Text} {rest : List (Text × Text)} {word between result : Text}
      (first : Rewritten pair.1 pair.2 word between) (later : PairsRewrite rest between result) :
      PairsRewrite (pair :: rest) word result

/-- Contexts of which each is closed in itself, and that ask for nothing the reader does not know. -/
structure Contained (r : CharacterRule) (macros : Macros) : Prop where
  before : Closed (expandContext macros r.before)
  after : Closed (expandContext macros r.after)
  plain_before : asksUnknown (expandContext macros r.before) = false
  plain_after : asksUnknown (expandContext macros r.after) = false

variable {r : CharacterRule} {macros : Macros} {o : Outcome} {pair : Text × Text}

theorem applyOne_compiled {p : Pattern} (nonempty : pair.1 ≠ [])
    (free : ¬ hasException o.result r.exceptions = true) (contained : r.Contained macros)
    (compiled : Regex.compile (r.patternOf macros pair) = .ok p) :
    ∃ o', r.applyOne macros o pair = ⟨[], .ok o'⟩ ∧ o'.warnings = o.warnings ∧
      Rewritten pair.1 pair.2 o.result o'.result := by
  have rewritten := rulePattern_rewrites contained.before contained.after nonempty compiled pair.2
    o.result
  refine ⟨_, applyPair_compiled free compiled, ?_, ?_⟩
  · split <;> rfl
  · split
    · rename_i same
      rw [same] at rewritten
      exact rewritten
    · exact rewritten

theorem applyOne_rewrites {o' : Outcome} (nonempty : pair.1 ≠ [])
    (contained : r.Contained macros) (applied : (r.applyOne macros o pair).outcome = .ok o') :
    Rewritten pair.1 pair.2 o.result o'.result := by
  obtain ⟨_, rfl⟩ | ⟨free, ⟨f, warning, _, rfl⟩ | ⟨p, compiled, _⟩⟩ := applyPair_ok applied
  · exact Rewritten.unchanged _
  · exact Rewritten.unchanged o.result
  · obtain ⟨o₁, replaced, _, rewritten⟩ := applyOne_compiled nonempty free contained compiled
    rw [replaced] at applied
    cases applied
    exact rewritten

theorem applyPairs_rewrite (pairs : List (Text × Text)) (nonempty : ∀ pair ∈ pairs, pair.1 ≠ [])
    (contained : r.Contained macros) {o o' : Outcome}
    (applied : (r.applyPairs (expandContext macros r.before) (expandContext macros r.after) pairs
      o).outcome = .ok o') : PairsRewrite pairs o.result o'.result := by
  induction pairs generalizing o with
  | nil =>
    cases applied
    exact PairsRewrite.nil _
  | cons pair rest ih =>
    obtain ⟨o₁, first, later⟩ := applyPairs_cons applied
    have rewritten := applyOne_rewrites (nonempty pair List.mem_cons_self) contained first
    exact PairsRewrite.cons rewritten
      (ih (fun p member => nonempty p (List.mem_cons_of_mem pair member)) later)

/-- A pair that an exception stops or whose pattern is refused leaves the word alone, with a
warning in the second case. Between contained contexts it replaces only its target, and no kinds of
characters exclude one another; and so do all pairs of a rule, one after the other. -/
theorem targets_only (r : CharacterRule) (macros : Macros) :
    (∀ pair ∈ r.pairs, ∀ o,
      (hasException o.result r.exceptions = true → r.applyOne macros o pair = ⟨[], .ok o⟩) ∧
      (¬ hasException o.result r.exceptions = true →
        (∀ f, Regex.compile (r.patternOf macros pair) = .error (.syntaxFault f) →
          ∃ event warning, r.applyOne macros o pair =
            ⟨[event], .ok { o with warnings := o.warnings ++ [warning] }⟩) ∧
        (∀ c, Regex.compile (r.patternOf macros pair) = .error (.conflictingFlags c) →
          r.applyOne macros o pair = ⟨[], .error (.conflictingFlags c)⟩ ∧
            (r.Contained macros → c = .versions)) ∧
        ∀ p, Regex.compile (r.patternOf macros pair) = .ok p → r.Contained macros →
          ∃ o', r.applyOne macros o pair = ⟨[], .ok o'⟩ ∧ o'.warnings = o.warnings ∧
            Rewritten pair.1 pair.2 o.result o'.result)) ∧
      ∀ word o, r.Contained macros → (r.apply macros word).outcome = .ok o →
        PairsRewrite r.pairs word o.result := by
  refine ⟨fun pair member o => ⟨applyPair_excepted, fun free => ⟨?_, ?_, ?_⟩⟩, ?_⟩
  · intro f refused
    exact ⟨_, _, applyPair_refused free refused⟩
  · intro c refused
    exact ⟨applyPair_conflicting free refused,
      fun contained => rulePattern_conflict contained.before contained.after refused⟩
  · intro p compiled contained
    exact applyOne_compiled (target_ne_nil member) free contained compiled
  · intro word o contained applied
    exact applyPairs_rewrite r.pairs (fun _ member => target_ne_nil member) contained applied

def lenites : CharacterRule where
  id := ['l']
  target := "p"
  replacement := "b"
  after := "[)o](?i)a"

theorem targets_only_lenites :
    ∃ o, (lenites.apply [] "poaPoApoA").outcome = .ok o ∧ o.result = ("boaPoAboA" : Text) ∧
      PairsRewrite lenites.pairs "poaPoApoA" o.result := by
  have contained : lenites.Contained [] := ⟨by decide, by decide, by decide, by decide⟩
  have ended : (lenites.apply [] "poaPoApoA").outcome = .ok ⟨"boaPoAboA", true, [], []⟩ := by
    decide
  exact ⟨_, ended, rfl, (targets_only lenites []).2 _ _ contained ended⟩

/-- The parenthesis of the context closes the look, and the one after it a group of its own. -/
def spliced : CharacterRule where
  id := ['s']
  target := "p"
  replacement := "b"
  after := "a)|(q"

/-- A context that is not closed lets a rule replace more than its target. -/
theorem targets_not_only :
    (spliced.apply [] "q").outcome = .ok ⟨"b", true, [], []⟩ ∧
      ¬ Rewritten "p" "b" "q" "b" := by
  refine ⟨by decide, fun rewritten => ?_⟩
  exact absurd (rewritten.eq_of_free (by decide)) (by decide)

end CharacterRule
end SoundLaw
