/-!
The exact value of a binary floating-point number: a natural number times a power of two.
-/
namespace SoundLaw

/-- The number `m * 2 ^ q`. -/
structure Binary where
  m : Nat
  q : Int
  /-- The next smaller number is nearer than the next greater one. -/
  narrowBelow : Bool
deriving DecidableEq

inductive FloatClass where
  | finite (negative : Bool) (magnitude : Binary)
  | infinite (negative : Bool)
  | undefined
deriving DecidableEq

namespace Binary

/-- The number read from 64 bits: one for the sign, eleven for the exponent, the rest for digits. -/
def classify (bits : UInt64) : FloatClass :=
  let n := bits.toNat
  let negative := n / 0x8000000000000000 == 1
  let e : Nat := n / 0x10000000000000 % 0x800
  let f : Nat := n % 0x10000000000000
  if e == 2047 then if f == 0 then .infinite negative else .undefined
  else if e == 0 then .finite negative ⟨f, -1074, false⟩
  else .finite negative ⟨0x10000000000000 + f, (e : Int) - 1075, f == 0 && e > 1⟩

def scaled (m : Nat) (q : Int) : Nat × Nat := (m * Nat.pow 2 q.toNat, Nat.pow 2 (-q).toNat)

end Binary
end SoundLaw
