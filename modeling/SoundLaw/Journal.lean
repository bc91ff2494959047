import SoundLaw.Event

/-!
Computations that tell of events: the events in order, and the value or the error they end in.
-/
namespace SoundLaw

structure Journal (ε α : Type) where
  events : List Event
  outcome : Except ε α

namespace Journal
variable {ε ε' α β : Type}

def tell (e : Event) : Journal ε Unit := ⟨[e], .ok ()⟩

def raise (error : ε) : Journal ε α := ⟨[], .error error⟩

def ofExcept (outcome : Except ε α) : Journal ε α := ⟨[], outcome⟩

protected def pure (a : α) : Journal ε α := ⟨[], .ok a⟩

/-- Goes on with the value of the first computation; its events come first. -/
protected def bind (first : Journal ε α) (next : α → Journal ε β) : Journal ε β :=
  match first.outcome with
  | .error error => ⟨first.events, .error error⟩
  | .ok a => ⟨first.events ++ (next a).events, (next a).outcome⟩

instance : Monad (Journal ε) where
  pure := Journal.pure
  bind := Journal.bind

def mapError (f : ε → ε') (j : Journal ε α) : Journal ε' α := ⟨j.events, j.outcome.mapError f⟩

@[simp] theorem events_pure (a : α) : (pure a : Journal ε α).events = [] := rfl

@[simp] theorem outcome_pure (a : α) : (pure a : Journal ε α).outcome = .ok a := rfl

theorem bind_ok {first : Journal ε α} {a : α} (h : first.outcome = .ok a)
    (next : α → Journal ε β) :
    first >>= next = ⟨first.events ++ (next a).events, (next a).outcome⟩ := by
  show Journal.bind first next = _
  simp [Journal.bind, h]

theorem bind_error {first : Journal ε α} {error : ε} (h : first.outcome = .error error)
    (next : α → Journal ε β) : first >>= next = ⟨first.events, .error error⟩ := by
  show Journal.bind first next = _
  simp [Journal.bind, h]

theorem outcome_bind (first : Journal ε α) (next : α → Journal ε β) :
    (first >>= next).outcome = first.outcome.bind fun a => (next a).outcome := by
  cases ended : first.outcome with
  | error e => rw [bind_error ended]; rfl
  | ok a => rw [bind_ok ended]; rfl

end Journal
end SoundLaw
