import SoundLaw.Number.Binary
import SoundLaw.Text.Digits

/-!
Decimal numerals of binary numbers with a fixed number of places, rounded exactly.
-/
namespace SoundLaw

/-- The quotient rounded to the nearest integer, a half to the even neighbour. -/
def roundedQuotient (num den : Nat) : Nat :=
  let low := num / den
  let twice := 2 * (num % den)
  if twice < den then low
  else if den < twice then low + 1
  else if low % 2 == 0 then low else low + 1

namespace Binary

def roundedTo (places : Nat) (x : Binary) : Nat :=
  let (num, den) := scaled x.m x.q
  roundedQuotient (num * Nat.pow 10 places) den

def fixed (places : Nat) (x : Binary) : Text :=
  let units := x.roundedTo places
  let fraction := Text.decimal (units % Nat.pow 10 places)
  Text.decimal (units / Nat.pow 10 places) ++
    ('.' :: List.replicate (places - fraction.length) '0' ++ fraction)

end Binary

def threePlaces (x : Float) : Text :=
  match Binary.classify x.toBits with
  | .finite negative magnitude => (if negative then ['-'] else []) ++ magnitude.fixed 3
  | .infinite negative => (if negative then ['-'] else []) ++ "inf"
  | .undefined => "nan"

end SoundLaw
