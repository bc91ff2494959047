import SoundLaw.Schema.Check

/-!
Checks that pass: they tell of nothing and end in a value. A check put together from others passes
where its parts pass, and a field passes where it spells a value or leaves a default out.
-/
namespace SoundLaw

namespace Journal
variable {ε α β : Type}

@[simp] theorem map_pure (f : α → β) (a : α) : f <$> (pure a : Journal ε α) = pure (f a) := rfl

@[simp] theorem pure_bind (a : α) (next : α → Journal ε β) : pure a >>= next = next a := rfl

end Journal

namespace Checked
variable {α β γ : Type}

@[simp] theorem inside_pure (place : Place) (a : α) : inside place (pure a) = pure a := rfl

@[simp] theorem both_pure (a : α) (b : β) : both (pure a) (pure b) = pure (a, b) := rfl

theorem eachFrom_pure {check : Json → Checked α} {spell : α → Json} {l : List α}
    (passes : ∀ a ∈ l, check (spell a) = pure a) (i : Nat) :
    eachFrom check i (l.map spell) = pure l := by
  induction l generalizing i with
  | nil => rfl
  | cons a rest ih =>
    rw [List.forall_mem_cons] at passes
    rw [List.map_cons, eachFrom, passes.1, ih passes.2]
    rfl

end Checked

namespace Json

theorem checkTexts_texts (l : List Text) : checkTexts (.texts l) = pure l := by
  have passes : ∀ t ∈ l, checkText (.text t) = pure t := fun _ _ => rfl
  exact Checked.eachFrom_pure passes 0

def Optionally {α : Type} (Spells : α → Json → Prop) : Option α → Json → Prop
  | none, v => v = .null
  | some a, v => v ≠ .null ∧ Spells a v

theorem checkOptional_pure {α : Type} {Spells : α → Json → Prop} {check : Json → Checked α}
    (passes : ∀ a v, Spells a v → check v = pure a) {a : Option α} {v : Json}
    (spelled : Optionally Spells a v) : checkOptional check v = pure a := by
  cases a with
  | none =>
    rw [show v = .null from spelled]
    rfl
  | some a =>
    obtain ⟨filled, spelled⟩ := spelled
    cases v with
    | null => exact absurd rfl filled
    | _ => simp [checkOptional, passes a _ spelled]

end Json

namespace Fields
variable {α : Type} {name : Text} {fields : Fields}

theorem get?_append (l l' : Fields) (name : Text) :
    get? name (l ++ l') = (get? name l).or (get? name l') := by
  induction l with
  | nil => rfl
  | cons entry rest ih =>
    obtain ⟨key, value⟩ := entry
    by_cases same : key = name <;> simp [get?, same, ih]

/-- A field that spells a value, or is left out for the default one. -/
def Gives (Spells : α → Json → Prop) (name : Text) (default a : α) (fields : Fields) : Prop :=
  (∃ v, fields.get? name = some v ∧ Spells a v) ∨ (fields.get? name = none ∧ a = default)

theorem required_pure {check : Json → Checked α} {v : Json} {a : α}
    (found : fields.get? name = some v) (passes : check v = pure a) :
    fields.required name check = pure a := by
  simp [required, found, passes]

theorem defaulted_pure {Spells : α → Json → Prop} {check : Json → Checked α}
    (passes : ∀ a v, Spells a v → check v = pure a) {default a : α}
    (given : fields.Gives Spells name default a) :
    fields.defaulted name default check = pure a := by
  rcases given with ⟨v, found, spelled⟩ | ⟨absent, rfl⟩
  · simp [defaulted, found, passes a v spelled]
  · simp [defaulted, absent]

theorem only_pure {known : List Text} (all : ∀ entry ∈ fields, entry.1 ∈ known) :
    fields.only known = pure () := by
  induction fields with
  | nil => rfl
  | cons entry rest ih =>
    rw [List.forall_mem_cons] at all
    simp [only, all.1, ih all.2]

end Fields
end SoundLaw
