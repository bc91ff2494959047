import SoundLaw.Proofs.Regex.Words

/-!
What a replacement leaves alone. A row of letters between elements that take no characters matches
only where the text that it spells stands, so replacing its matches swaps such places and copies
the rest.
-/
namespace SoundLaw.Regex

/-- A word in which some places of a text, apart from one another, hold another text instead. -/
inductive Rewritten (old new : Text) : Text → Text → Prop where
  | done : Rewritten old new [] []
  | keep (c : Char) {t u : Text} (rest : Rewritten old new t u) :
      Rewritten old new (c :: t) (c :: u)
  | swap {t u : Text} (rest : Rewritten old new t u) : Rewritten old new (old ++ t) (new ++ u)

namespace Rewritten
variable {old new : Text}

theorem unchanged (t : Text) : Rewritten old new t t := by
  induction t with
  | nil => exact done
  | cons c t ih => exact keep c ih

theorem eq_of_free {t u : Text} (rewritten : Rewritten old new t u) (free : ¬ old <:+: t) :
    u = t := by
  induction rewritten with
  | done => rfl
  | keep c rest ih => rw [ih fun inside => free (List.infix_cons inside)]
  | @swap t u rest ih => exact absurd (List.prefix_append old t).isInfix free

end Rewritten

variable {first last : List Pattern} {letters : Text}

/-- A match of a row of letters is the text that it spells. -/
theorem matchLength_letters (hf : Still first) (hg : Still last) {before after : Text}
    {forbidEmpty : Bool} {n : Nat}
    (found : matchLength? (.ofList (first ++ (letters.map (letter []) ++ last))) before after
      forbidEmpty = some n) :
    n = letters.length ∧ letters <+: after := by
  obtain ⟨captures, start⟩ := hf.run_eq ⟨before, after, []⟩
  simp only [matchLength?, run_append_ahead, start] at found
  split at found
  · obtain ⟨r, found, length⟩ := Option.map_eq_some_iff.mp found
    rw [run_literal rfl] at found
    obtain ⟨s, across, found⟩ := Option.bind_eq_some_iff.mp found
    have stands : letters.isPrefixOf after = true := by
      by_contra missing
      simp [State.across, missing] at across
    have here := List.isPrefixOf_iff_prefix.mp stands
    simp only [State.across, stands, Bool.false_eq_true, ↓reduceIte, Option.some.injEq] at across
    obtain ⟨later, finish⟩ := hg.run_eq s
    rw [finish] at found
    split at found
    · split at found
      · cases found
      · cases found
        refine ⟨?_, here⟩
        rw [← length, ← across, List.length_drop]
        exact Nat.sub_sub_self here.length_le
    · cases found
  · cases found

/-- Where all matches are places of a text, replacing them swaps such places. -/
theorem replaceFrom_rewritten {p : Pattern} {old new : Text} (nonempty : old ≠ [])
    (matched : ∀ before after forbidEmpty n, matchLength? p before after forbidEmpty = some n →
      n = old.length ∧ old <+: after) {skip : Nat} {before text : Text}
    (inside : skip ≤ text.length) :
    Rewritten old new (text.drop skip) (replaceFrom p (fun _ => new) skip before text) := by
  have positive : 0 < old.length := List.length_pos_iff.mpr nonempty
  induction text generalizing skip before with
  | nil =>
    obtain rfl : skip = 0 := Nat.le_zero.mp inside
    rw [replaceFrom, List.drop_nil]
    split
    · rename_i found
      obtain ⟨n, found⟩ := Option.isSome_iff_exists.mp found
      exact absurd (List.prefix_nil.mp (matched _ _ _ _ found).2) nonempty
    · exact Rewritten.done
  | cons c rest ih =>
    cases skip with
    | succ skip =>
      rw [replaceFrom, List.drop_succ_cons]
      exact ih (Nat.le_of_succ_le_succ inside)
    | zero =>
      rw [replaceFrom, List.drop_zero]
      split
      · rename_i n found
        obtain ⟨length, here⟩ := matched _ _ _ _ found
        have short : n.succ ≤ (c :: rest).length := by
          rw [length]
          exact here.length_le
        have later : Rewritten old new (rest.drop n)
            (replaceFrom p (fun _ => new) n (c :: before) rest) :=
          ih (Nat.le_of_succ_le_succ short)
        have places : old ++ rest.drop n = c :: rest := by
          rw [List.prefix_iff_eq_take.mp here, ← length]
          simp
        rw [← places]
        exact Rewritten.swap later
      · rename_i found
        exact absurd (matched _ _ _ _ found).1 (Nat.ne_of_lt positive)
      · exact Rewritten.keep c (ih (Nat.zero_le _))

end SoundLaw.Regex
