import SoundLaw.Journal
import Mathlib.Data.List.Basic

/-!
Journals as computations: what is done first tells first, and how steps are grouped makes no
difference.
-/
namespace SoundLaw.Journal
variable {ε α β γ : Type}

theorem events_bind (first : Journal ε α) (next : α → Journal ε β) :
    (first >>= next).events = first.events ++
      match first.outcome with
      | .ok a => (next a).events
      | .error _ => [] := by
  cases ended : first.outcome with
  | error error => rw [bind_error ended, List.append_nil]
  | ok a => rw [bind_ok ended]

theorem outcome_map (f : α → β) (j : Journal ε α) : (f <$> j).outcome = j.outcome.map f := by
  show (Journal.bind j _).outcome = _
  unfold Journal.bind
  cases j.outcome <;> rfl

theorem outcome_mapError {ε' : Type} (f : ε → ε') (j : Journal ε α) :
    (j.mapError f).outcome = j.outcome.mapError f := rfl

theorem bind_assoc (first : Journal ε α) (next : α → Journal ε β) (last : β → Journal ε γ) :
    first >>= next >>= last = first >>= fun a => next a >>= last := by
  cases ended : first.outcome with
  | error error =>
    rw [bind_error ended, bind_error ended]
    rfl
  | ok a =>
    rw [bind_ok ended, bind_ok ended]
    cases later : (next a).outcome with
    | error error =>
      rw [bind_error later, bind_error rfl]
    | ok b =>
      rw [bind_ok later, bind_ok rfl, List.append_assoc]

theorem bind_pure (first : Journal ε α) : first >>= pure = first := by
  obtain ⟨events, outcome⟩ := first
  cases outcome with
  | error error => rfl
  | ok a => exact congrArg (fun all => Journal.mk all (.ok a)) (List.append_nil events)

instance : LawfulMonad (Journal ε) :=
  .mk' (Journal ε) bind_pure (fun _ _ => rfl) bind_assoc

end SoundLaw.Journal
