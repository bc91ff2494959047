import SoundLaw.Proofs.Regex.Balance
import SoundLaw.Proofs.Regex.Words

/-!
Texts that are read as a condition on a place: an edge of the text, or a look to one side at a
closed text. Between two of them an escaped text is read as the row of its letters, so the pattern
of all three is known up to what is looked at.
-/
namespace SoundLaw.Regex

/-- Elements that take no characters: none, an edge, or a look to one side. -/
inductive Condition : List Pattern → Prop where
  | none : Condition []
  | edge (a : Anchor) : Condition [.anchor a]
  | look (behind : Bool) (p : Pattern) : Condition [.look behind false p]

namespace Condition
variable {ps : List Pattern}

theorem still (condition : Condition ps) : Still ps := by
  cases condition with
  | none => exact still_nil
  | edge a => exact still_anchor a
  | look behind p => exact still_look behind false p

theorem resolve (condition : Condition ps) (names : List (Text × Nat)) :
    Condition (ps.map (Pattern.resolve names)) := by
  cases condition with
  | none => exact none
  | edge a => exact edge a
  | look behind p => exact look behind (p.resolve names)

theorem short (condition : Condition ps) : ps.length ≤ 1 := by
  cases condition with
  | none => exact Nat.zero_le 1
  | edge a => exact Nat.le_refl 1
  | look behind p => exact Nat.le_refl 1

end Condition

theorem WholeFlags.ignoresCase (w : WholeFlags) : w.flags.ignoresCase = Flags.ignoresCase [] := by
  have exact : Flag.ignoreCase ∉ w.flags := fun member => absurd (w.whole _ member) (by decide)
  simp [Flags.ignoresCase, exact]

namespace Read
variable {w : WholeFlags} {flags : Flags} {fuel : Nat} {before : List (Option Pattern)} {s : Source}
  {Q : Pattern × Flags → Source → Prop} {context more : Text}

theorem looked_closed {β : Type} (g : Pattern → β) (closed : Closed context)
    (body : s.rest = context ++ ')' :: more) :
    Ensures (do
      let p ← (do
        let (p, _) ← alternatives w flags fuel
        expect ')'
        return p : Read Pattern)
      return g p) s fun q s' => s'.rest = more ∧ ∃ p, q = g p := by
  rw [ensures_bind]
  refine (alternatives_closed closed body).bind ?_
  intro r s₁ ends
  rw [ensures_bind, ensures_expect]
  intro later next
  rw [ensures_pure, ensures_pure, Source.past_rest, ends]
  exact ⟨rfl, r.1, rfl⟩

theorem parenthesis_behind_closed (closed : Closed context)
    (here : s.rest = '?' :: '<' :: '=' :: (context ++ ')' :: more)) :
    Ensures (parenthesis w flags (fuel + 1)) s fun q s' =>
      s'.rest = more ∧ ∃ p, q = .element (.look true false p) := by
  rw [parenthesis]
  dsimp only
  rw [ensures_bind, ensures_accept]
  constructor
  · intro _ _
    rw [if_pos rfl, ensures_bind, ensures_get, Source.past_rest, here]
    change Ensures (skip 2 >>= _) _ _
    rw [ensures_bind, ensures_skip]
    refine looked_closed (fun p => Bracketed.element (.look true false p)) closed ?_
    rw [Source.past_rest, Source.past_rest, here]
    rfl
  · intro other
    rw [here] at other
    exact absurd rfl other

theorem parenthesis_ahead_closed (closed : Closed context)
    (here : s.rest = '?' :: '=' :: (context ++ ')' :: more)) :
    Ensures (parenthesis w flags (fuel + 1)) s fun q s' =>
      s'.rest = more ∧ ∃ p, q = .element (.look false false p) := by
  rw [parenthesis]
  dsimp only
  rw [ensures_bind, ensures_accept]
  constructor
  · intro _ _
    rw [if_pos rfl, ensures_bind, ensures_get, Source.past_rest, here]
    change Ensures (skip 1 >>= _) _ _
    rw [ensures_bind, ensures_skip]
    refine looked_closed (fun p => Bracketed.element (.look false false p)) closed ?_
    rw [Source.past_rest, Source.past_rest, here]
    rfl
  · intro other
    rw [here] at other
    exact absurd rfl other

theorem elements_group (here : s.rest = '(' :: more)
    (group : Ensures (parenthesis w flags fuel) (s.past 1) fun q s' =>
      ∃ p, q = .element p ∧ Ensures (elements w flags fuel (some p :: before)) s' Q) :
    Ensures (elements w flags (fuel + 1) before) s Q := by
  rw [elements, ensures_bind, ensures_get, ensures_bind, ensures_get, here]
  dsimp only
  rw [if_neg (by decide), ensures_bind, ensures_skip, if_neg (by decide), if_pos rfl]
  refine group.bind ?_
  intro q s' rest
  obtain ⟨p, rfl, rest⟩ := rest
  exact rest

/-- A text is read as a condition, if it is read at all. -/
def ReadsCondition (flags : Flags) (t : Text) : Prop :=
  ∀ w fuel before s more (Q : Pattern × Flags → Source → Prop), 4 * t.length ≤ fuel →
    s.rest = t ++ more →
    (∀ ps s', Condition ps → s'.rest = more →
      Ensures (elements w flags (fuel - ps.length) ((ps.map some).reverse ++ before)) s' Q) →
    Ensures (elements w flags fuel before) s Q

theorem Reads.ensures {t : Text} {ps : List Pattern} (reads : Reads flags t ps)
    (enough : 4 * t.length ≤ fuel) (here : s.rest = t ++ more)
    (rest : Ensures (elements w flags (fuel - ps.length) ((ps.map some).reverse ++ before))
      (s.past t.length) Q) : Ensures (elements w flags fuel before) s Q := by
  intro p s' ended
  rw [reads.reads w fuel before s more enough here] at ended
  exact rest p s' ended

theorem Reads.condition {t : Text} {ps : List Pattern} (reads : Reads flags t ps)
    (condition : Condition ps) : ReadsCondition flags t :=
  fun _ _ _ s _ _ enough here rest =>
    reads.ensures enough here (rest ps (s.past t.length) condition (Source.past_over here))

theorem readsCondition_look (mark : Text) (behind : Bool)
    (inside : ∀ w fuel s more, s.rest = mark ++ (context ++ ')' :: more) →
      Ensures (parenthesis w flags (fuel + 1)) s fun q s' =>
        s'.rest = more ∧ ∃ p, q = .element (.look behind false p)) :
    ReadsCondition flags ('(' :: (mark ++ (context ++ [')']))) := by
  intro w fuel before s more Q enough here rest
  simp only [List.length_cons, List.length_append, List.length_nil] at enough
  obtain ⟨fuel, rfl⟩ : ∃ k, fuel = k + 2 := ⟨fuel - 2, by omega⟩
  have body : (s.past 1).rest = mark ++ (context ++ ')' :: more) := by
    rw [Source.past_rest, here]
    simp
  refine elements_group (by simpa using here) ((inside w fuel _ more body).mono ?_)
  rintro q s' ⟨after, p, rfl⟩
  exact ⟨_, rfl, rest [.look behind false p] s' (Condition.look behind p) after⟩

theorem readsCondition_behind (flags : Flags) (closed : Closed context) :
    ReadsCondition flags ('(' :: '?' :: '<' :: '=' :: (context ++ [')'])) :=
  readsCondition_look ['?', '<', '='] true fun _ _ _ _ here => parenthesis_behind_closed closed here

theorem readsCondition_ahead (flags : Flags) (closed : Closed context) :
    ReadsCondition flags ('(' :: '?' :: '=' :: (context ++ [')'])) :=
  readsCondition_look ['?', '='] false fun _ _ _ _ here => parenthesis_ahead_closed closed here

def Between (letters : Text) (p : Pattern) : Prop :=
  ∃ first last, Condition first ∧ Condition last ∧
    p = .ofList (first ++ (letters.map (letter []) ++ last))

theorem elements_end (here : s.rest = []) :
    Ensures (elements w flags fuel before) s fun r s' =>
      r = (finish before, flags) ∧ s'.rest = [] := by
  cases fuel with
  | zero =>
    rw [elements]
    exact ensures_fail _
  | succ fuel =>
    rw [elements, ensures_bind, ensures_get, ensures_bind, ensures_get, here]
    exact ensures_pure.mpr ⟨rfl, here⟩

theorem elements_between {first last letters : Text} (hf : ReadsCondition w.flags first)
    (hl : ReadsCondition w.flags last) (here : s.rest = first ++ (escapeText letters ++ last))
    (enough : 4 * s.rest.length + 3 ≤ fuel) :
    Ensures (elements w w.flags fuel [none]) s fun r s' =>
      (Between letters r.1 ∧ r.2 = w.flags) ∧ s'.rest = [] := by
  have literal := reads_literal w.flags letters
  have short := literal.short
  rw [List.length_map] at short
  have size : s.rest.length = first.length + ((escapeText letters).length + last.length) := by
    rw [here, List.length_append, List.length_append]
  refine hf _ _ _ _ _ _ (by omega) here fun ps s₁ first_condition after => ?_
  have one := first_condition.short
  refine literal.ensures (by omega) after ?_
  have after₂ : (s₁.past (escapeText letters).length).rest = last ++ [] := by
    rw [List.append_nil, Source.past_over after]
  refine hl _ _ _ _ [] _ ?_ after₂ fun qs s₂ last_condition after₃ => ?_
  · rw [List.length_map]
    omega
  refine (elements_end after₃).mono ?_
  intro r s₃ ends
  refine ⟨⟨⟨ps, qs, first_condition, last_condition, ?_⟩, ?_⟩, ends.2⟩
  · rw [ends.1, ← finish_elements, letter_congr w.ignoresCase]
    simp
  · rw [ends.1]

/-- An escaped text between two conditions is read as a row of letters between them: flags that
the conditions turn on count inside of these, and no flag of a whole pattern concerns case. -/
theorem whole_between {first last letters : Text} {r : Pattern × Flags} {s : Source}
    (hf : ReadsCondition w.flags first) (hl : ReadsCondition w.flags last)
    (read : Read.whole w (first ++ (escapeText letters ++ last)) = .ok (r, s)) :
    Between letters r.1 ∧ r.2 = w.flags := by
  generalize same : first ++ (escapeText letters ++ last) = t at read
  have row : Ensures (elements w w.flags (4 * t.length + 3) [none]) (Source.ofText t)
      fun r s' => (Between letters r.1 ∧ r.2 = w.flags) ∧ s'.rest = [] :=
    elements_between hf hl same.symm (Nat.le_refl _)
  have ends : Ensures (alternatives w w.flags (4 * t.length + 4)) (Source.ofText t)
      fun r _ => Between letters r.1 ∧ r.2 = w.flags := by
    rw [alternatives]
    refine row.bind ?_
    intro r s₁ ends
    rw [ensures_bind, ensures_accept]
    refine ⟨fun more next => ?_, fun _ => ensures_pure.mpr ends.1⟩
    rw [ends.2] at next
    cases next
  exact ends r s read

end Read
end SoundLaw.Regex
