import SoundLaw.Proofs.Regex.Brackets
import SoundLaw.Proofs.Regex.Reading

/-!
How far the parts of the reader read. What holds where a read ends is computed backwards over its
steps. Names, numbers, flags and the rest of an escape take no bracket.
-/
namespace SoundLaw.Regex

def brackets : List Char := ['\\', '(', ')', '[', ']']

def isBracket (c : Char) : Bool := c ∈ brackets

/-- A text, and what is left of it after characters that are no brackets. -/
inductive Past : Text → Text → Prop where
  | here (t : Text) : Past t t
  | step {c : Char} {t u : Text} (plain : isBracket c = false) (later : Past t u) : Past (c :: t) u

namespace Past

theorem trans {t u v : Text} (first : Past t u) (second : Past u v) : Past t v := by
  induction first with
  | here t => exact second
  | step plain later ih => exact step plain (ih second)

theorem drop {t : Text} {n : Nat} (plain : ∀ c ∈ t.take n, isBracket c = false) :
    Past t (t.drop n) := by
  induction n generalizing t with
  | zero => exact here t
  | succ n ih =>
    cases t with
    | nil => exact here []
    | cons c t =>
      have first := plain c (by simp)
      exact step first (ih fun d member => plain d (by simp [member]))

theorem takeWhile {p : Char → Bool} (plain : ∀ c, p c = true → isBracket c = false) (t : Text) :
    Past t (t.drop (t.takeWhile p).length) := by
  induction t with
  | nil => exact here []
  | cons c t ih =>
    cases taken : p c with
    | true => simpa [taken] using step (plain c taken) ih
    | false => simpa [taken] using here (c :: t)

end Past

namespace Read
variable {α β : Type} {m : Read α} {f : α → Read β} {s : Source} {Q : α → Source → Prop}

/-- What holds of the value and of the source where a read ends without a fault. -/
def Ensures (m : Read α) (s : Source) (Q : α → Source → Prop) : Prop :=
  ∀ a s', m s = .ok (a, s') → Q a s'

theorem Ensures.mono {P : α → Source → Prop} (holds : Ensures m s P)
    (imp : ∀ a s', P a s' → Q a s') : Ensures m s Q :=
  fun a s' ended => imp a s' (holds a s' ended)

theorem ensures_bind {Q : β → Source → Prop} :
    Ensures (m >>= f) s Q ↔ Ensures m s fun a s' => Ensures (f a) s' Q := by
  unfold Ensures
  simp only [bind_apply]
  constructor
  · intro holds a s' first b s'' second
    refine holds b s'' ?_
    rw [first]
    exact second
  · intro holds b s'' ended
    cases first : m s with
    | error e => rw [first] at ended; cases ended
    | ok r =>
      obtain ⟨a, s'⟩ := r
      rw [first] at ended
      exact holds a s' first b s'' ended

theorem Ensures.bind {P : α → Source → Prop} {Q : β → Source → Prop} (first : Ensures m s P)
    (later : ∀ a s', P a s' → Ensures (f a) s' Q) : Ensures (m >>= f) s Q :=
  ensures_bind.mpr (first.mono later)

theorem ensures_pure {a : α} : Ensures (pure a) s Q ↔ Q a s := by
  constructor
  · intro holds
    exact holds a s rfl
  · intro holds b s' ended
    cases ended
    exact holds

theorem ensures_fail (reason : Reason) : Ensures (fail reason) s Q := by
  intro a s' ended
  cases ended

theorem ensures_failAt (reason : Reason) (position : Nat) :
    Ensures (failAt reason position) s Q := by
  intro a s' ended
  cases ended

theorem ensures_get {Q : Source → Source → Prop} : Ensures get s Q ↔ Q s s := ensures_pure

theorem ensures_set {Q : PUnit → Source → Prop} {s₁ : Source} :
    Ensures (set s₁) s Q ↔ Q ⟨⟩ s₁ := by
  constructor
  · intro holds
    exact holds ⟨⟩ s₁ rfl
  · intro holds a s' ended
    cases ended
    exact holds

theorem ensures_modify {Q : PUnit → Source → Prop} {g : Source → Source} :
    Ensures (modify g) s Q ↔ Q ⟨⟩ (g s) := by
  constructor
  · intro holds
    exact holds ⟨⟩ (g s) rfl
  · intro holds a s' ended
    cases ended
    exact holds

theorem ensures_skip {Q : Unit → Source → Prop} {n : Nat} :
    Ensures (skip n) s Q ↔ Q () (s.past n) := ensures_modify

theorem ensures_ite {c : Prop} [Decidable c] {n : Read α} :
    Ensures (if c then m else n) s Q ↔ (c → Ensures m s Q) ∧ (¬ c → Ensures n s Q) := by
  by_cases h : c <;> simp [h]

theorem ensures_guard {c : Prop} [Decidable c] {n : Read α} (refused : Ensures m s Q)
    (later : ¬ c → Ensures n s Q) : Ensures (if c then m else n) s Q :=
  ensures_ite.mpr ⟨fun _ => refused, later⟩

theorem ensures_next {Q : Option Char → Source → Prop} :
    Ensures next? s Q ↔
      (∀ c more, s.rest = c :: more → Q (some c) (s.past 1)) ∧ (s.rest = [] → Q none s) := by
  cases rest : s.rest with
  | nil =>
    have ended : next? s = .ok (none, s) := by simp [next?, bind_apply, get_apply, rest, pure_apply]
    simp [Ensures, ended]
  | cons c more => simp [Ensures, next_apply rest]

theorem ensures_accept {Q : Bool → Source → Prop} {c : Char} :
    Ensures (accept c) s Q ↔
      (∀ more, s.rest = c :: more → Q true (s.past 1)) ∧
        (s.rest.head? ≠ some c → Q false s) := by
  by_cases next : s.rest.head? = some c
  · obtain ⟨more, rest⟩ := List.head?_eq_some_iff.mp next
    simp [Ensures, accept_next rest, rest]
  · have other (more : Text) : s.rest ≠ c :: more := fun rest => next (by simp [rest])
    simp [Ensures, accept_other next, next, other]

theorem ensures_expect {Q : Unit → Source → Prop} {c : Char} :
    Ensures (expect c) s Q ↔ ∀ more, s.rest = c :: more → Q () (s.past 1) := by
  unfold expect
  rw [ensures_bind, ensures_accept]
  simp [ensures_pure, ensures_fail]

theorem ensures_span {Q : Text → Source → Prop} {p : Char → Bool} :
    Ensures (span p) s Q ↔ Q (s.rest.takeWhile p) (s.past (s.rest.takeWhile p).length) := by
  unfold span
  rw [ensures_bind, ensures_get, ensures_bind, ensures_skip, ensures_pure]

theorem ensures_orElse {n : Read α} (first : Ensures m s Q) (second : Ensures n s Q) :
    Ensures (orElse m n) s Q := by
  intro a s' ended
  unfold orElse at ended
  split at ended
  · exact second a s' ended
  · exact first a s' ended

end Read
end SoundLaw.Regex
