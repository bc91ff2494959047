import SoundLaw.Number.Binary
import SoundLaw.Text.Digits

/-!
The shortest decimal numeral that reads back as a given binary number; of several the nearest,
of two equally near the even one.
-/
namespace SoundLaw

structure Decimal where
  digits : Nat
  exponent : Int

namespace Binary

def compareDecimal (d : Decimal) (num den : Nat) : Ordering :=
  compare (d.digits * Nat.pow 10 d.exponent.toNat * den)
    (num * Nat.pow 10 (-d.exponent).toNat)

/-- `d` lies among the numbers that round to `x`: up to half the distance to its neighbours, the
ends included where `x` is even. -/
def readsBack (x : Binary) (d : Decimal) : Bool :=
  let (low, den) := scaled (if x.narrowBelow then 4 * x.m - 1 else 4 * x.m - 2) (x.q - 2)
  let (high, _) := scaled (4 * x.m + 2) (x.q - 2)
  let even := x.m % 2 == 0
  let fromLow := compareDecimal d low den
  let fromHigh := compareDecimal d high den
  (fromLow == .gt || (even && fromLow == .eq)) && (fromHigh == .lt || (even && fromHigh == .eq))

def scaleFrom (x : Binary) (start : Int) : Nat → Int
  | 0 => start
  | steps + 1 =>
    let (num, den) := scaled x.m x.q
    if compareDecimal ⟨1, start⟩ num den == .gt then start else scaleFrom x (start + 1) steps

/-- The two multiples of `10 ^ exponent` around `x` that read back, the better one first. -/
def onGrid (x : Binary) (exponent : Int) : Option Decimal :=
  let (num, den) := scaled x.m x.q
  let below := num * Nat.pow 10 (-exponent).toNat / (den * Nat.pow 10 exponent.toNat)
  let lower : Decimal := ⟨below, exponent⟩
  let upper : Decimal := ⟨below + 1, exponent⟩
  match x.readsBack lower, x.readsBack upper with
  | true, false => some lower
  | false, true => some upper
  | false, false => none
  | true, true =>
    match compareDecimal ⟨2 * below + 1, exponent⟩ (2 * num) den with
    | .gt => some lower
    | .lt => some upper
    | .eq => some (if below % 2 == 0 then lower else upper)

def shortestFrom (x : Binary) (scale : Int) (digits : Nat) : Nat → Decimal
  | 0 => (x.onGrid (scale - digits)).getD ⟨x.m, x.q⟩
  | more + 1 =>
    match x.onGrid (scale - digits) with
    | some d => d
    | none => shortestFrom x scale (digits + 1) more

/-- The shortest decimal of a number that is not zero. -/
def shortest (x : Binary) : Decimal :=
  let bits : Int := x.q + (Nat.log2 x.m : Nat)
  let start := bits * 3 / 10 - 2
  shortestFrom x (scaleFrom x start 40) 1 16

end Binary

/-- Digits and the place of the point after the first `point` of them: positional for points
from -3 to 16, with an exponent of at least two digits elsewhere. -/
def layOut (digits : Text) (point : Int) : Text :=
  if -3 ≤ point && point ≤ 0 then
    "0." ++ List.replicate (-point).toNat '0' ++ digits
  else if 0 < point && point ≤ 16 then
    let whole := point.toNat
    if digits.length ≤ whole then digits ++ List.replicate (whole - digits.length) '0' ++ ".0"
    else digits.take whole ++ '.' :: digits.drop whole
  else
    let exponent := point - 1
    let mantissa := match digits with
      | d :: more@(_ :: _) => d :: '.' :: more
      | _ => digits
    let power := Text.decimal exponent.natAbs
    mantissa ++ 'e' :: (if exponent < 0 then '-' else '+') ::
      (if power.length < 2 then '0' :: power else power)

def numeral (x : Float) : Text :=
  match Binary.classify x.toBits with
  | .undefined => "nan"
  | .infinite negative => (if negative then ['-'] else []) ++ "inf"
  | .finite negative magnitude =>
    let sign : Text := if negative then ['-'] else []
    if magnitude.m = 0 then sign ++ "0.0"
    else
      let d := magnitude.shortest
      let all := Text.decimal d.digits
      sign ++ layOut (all.reverse.dropWhile (· = '0')).reverse (d.exponent + all.length)

end SoundLaw
