import SoundLaw.Number.Binary
import SoundLaw.Number.Reading
import SoundLaw.Unicode.Property
import SoundLaw.Text.Blank

/-!
Whole and real numbers read leniently: from floating-point numbers without a fraction, and from
texts with blanks around them and single underscores between digits.
-/
namespace SoundLaw

inductive NotWhole where
  | notFinite | fractional | tooGreat

/-- The whole number that a floating-point number is; from `2 ^ 63` on it is refused. -/
def wholeOfFloat (x : Float) : Except NotWhole Int :=
  match Binary.classify x.toBits with
  | .finite negative magnitude =>
    let (num, den) := Binary.scaled magnitude.m magnitude.q
    if num % den ≠ 0 then .error .fractional
    else if num / den < 0x8000000000000000 then
      let n : Int := (num / den : Nat)
      .ok (if negative then -n else n)
    else .error .tooGreat
  | _ => .error .notFinite

namespace Text

def trimSpace (t : Text) : Text :=
  ((t.dropWhile fun c => Unicode.isSpace c.toNat).reverse.dropWhile
    fun c => Unicode.isSpace c.toNat).reverse

def joinUnderscores? (t : Text) : Option Text :=
  if (split (· = '_') t).any (·.isEmpty) then none else some (t.filter (· ≠ '_'))

def withoutZeroFraction (t : Text) : Text :=
  let fraction := t.dropWhile (· ≠ '.')
  if fraction.drop 1 |>.all (· = '0') then t.takeWhile (· ≠ '.') else t

end Text

def wholeOfText? (t : Text) : Option Int :=
  let (negative, body) := Numeral.readSign t.trimSpace
  match Text.joinUnderscores? (Text.withoutZeroFraction body) with
  | some digits =>
    if Text.isNumeral digits then
      let n : Int := Text.value 10 digits
      some (if negative then -n else n)
    else none
  | none => none

def Text.lowerAscii (t : Text) : Text := t.map Char.toLower

def specialOfText? (t : Text) : Option Float :=
  let (negative, name) := Numeral.readSign t.lowerAscii
  let x? : Option Float :=
    if name = "inf".toList || name = "infinity".toList then some (1.0 / 0.0)
    else if name = "nan".toList then some (0.0 / 0.0)
    else none
  x?.map fun x => if negative then -x else x

def plainReal? (t : Text) : Option Float :=
  match Numeral.read? t with
  | some n => some n.toFloat
  | none => specialOfText? t

def realOfText? (t : Text) : Option Float :=
  match plainReal? t.trimSpace with
  | some x => some x
  | none => ((Text.joinUnderscores? t).map Text.trimSpace).bind plainReal?

def Text.separatesDigits : Bool → Text → Bool
  | _, [] => true
  | afterDigit, '_' :: rest =>
    afterDigit && (rest.head?.any (Text.isDigitIn 10)) && separatesDigits false rest
  | _, c :: rest => separatesDigits (Text.isDigitIn 10 c) rest

/-- The real number that a word of a call spells: underscores stand only between digits. -/
def realOfWord? (t : Text) : Option Float :=
  let word := t.strip
  if Text.separatesDigits false word then plainReal? (word.filter (· ≠ '_')) else none

end SoundLaw
