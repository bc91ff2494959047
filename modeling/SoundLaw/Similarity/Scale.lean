/-!
The numbers in which distances are measured. Distances are written once, for every scale: they
run on floating-point numbers and hold their laws on the rationals.
-/
namespace SoundLaw

class Scale (α : Type) extends Add α, Sub α, Mul α, Div α, OfScientific α where
  count : Nat → α
  less : α → α → Bool
  atMost : α → α → Bool

instance : Scale Float where
  count := Float.ofNat
  less a b := a < b
  atMost a b := a ≤ b

instance : Scale Rat where
  count n := n
  less a b := a < b
  atMost a b := a ≤ b

namespace Scale
variable {α : Type} [Scale α]

/-- The lesser of two numbers; the first where neither is. -/
def lesser (a b : α) : α := if less b a then b else a

end Scale
end SoundLaw
