import SoundLaw.Number.Rounding

/-!
Decimal numerals read as floating-point numbers, rounded to the nearest.
-/
namespace SoundLaw

/-- The floating-point number nearest to a positive quotient, a half to the even neighbour. -/
def nearestFloat (num den : Nat) : Float :=
  let guess : Int := (num.log2 : Int) - den.log2 - 53
  let part (e : Int) : Nat × Nat :=
    if e < 0 then (num * Nat.pow 2 e.natAbs, den) else (num, den * Nat.pow 2 e.natAbs)
  let exact := if (part guess).1 / (part guess).2 < 0x20000000000000 then guess else guess + 1
  let e := max exact (-1074)
  Float.scaleB (Float.ofNat (roundedQuotient (part e).1 (part e).2)) e

def floatOfInt (n : Int) : Float :=
  if n = 0 then 0.0
  else if n < 0 then -(nearestFloat n.natAbs 1)
  else nearestFloat n.natAbs 1

structure Numeral where
  negative : Bool
  whole : Text
  fraction : Text
  exponent : Int

namespace Numeral

def digits (n : Numeral) : Text := n.whole ++ n.fraction

/-- The nearest floating-point number; numerals far beyond the range are infinite or zero. -/
def toFloat (n : Numeral) : Float :=
  let significant := n.digits.dropWhile (· = '0')
  let exponent := n.exponent - n.fraction.length
  let magnitude : Float :=
    if significant.isEmpty then 0.0
    else if exponent + significant.length > 310 then 1.0 / 0.0
    else if exponent + significant.length < -330 then 0.0
    else if exponent < 0 then nearestFloat (Text.value 10 significant) (Nat.pow 10 exponent.natAbs)
    else nearestFloat (Text.value 10 significant * Nat.pow 10 exponent.natAbs) 1
  if n.negative then -magnitude else magnitude

def readSign : Text → Bool × Text
  | '-' :: rest => (true, rest)
  | '+' :: rest => (false, rest)
  | rest => (false, rest)

def readExponent? : Text → Option Int
  | [] => some 0
  | mark :: rest =>
    if mark = 'e' || mark = 'E' then
      let (negative, digits) := readSign rest
      if Text.isNumeral digits then
        let n : Int := Text.value 10 digits
        some (if negative then -n else n)
      else none
    else none

/-- Reads a numeral in which one of the sides of the point may lack its digits. -/
def read? (t : Text) : Option Numeral :=
  let (negative, body) := readSign t
  let whole := body.takeWhile (Text.isDigitIn 10)
  let afterWhole := body.dropWhile (Text.isDigitIn 10)
  let (fraction, afterFraction) : Text × Text := match afterWhole with
    | '.' :: rest => (rest.takeWhile (Text.isDigitIn 10), rest.dropWhile (Text.isDigitIn 10))
    | rest => ([], rest)
  if whole.isEmpty && fraction.isEmpty then none
  else (readExponent? afterFraction).map fun exponent => ⟨negative, whole, fraction, exponent⟩

end Numeral
end SoundLaw
