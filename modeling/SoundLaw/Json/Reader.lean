import SoundLaw.Json.Basic
import SoundLaw.Number.Reading

/-!
JSON texts read strictly: no comments, no trailing commas, no characters left over. Of a name
that stands twice in an object the last value counts.
-/
namespace SoundLaw.Json

/-- What a reader accepts beyond the grammar. -/
structure Limits where
  /-- Whole numbers that stay whole; others become floating-point numbers. -/
  keepsInt : Int → Bool
  /-- Whether a number may be too great for a floating-point number. -/
  overflow : Bool
  /-- How many arrays and objects may enclose a value. -/
  depth : Nat

def fitsWord (n : Int) : Bool := -0x8000000000000000 ≤ n && n < 0x10000000000000000

def Limits.document : Limits := ⟨fitsWord, false, 1024⟩

def Limits.wide : Limits := ⟨fun _ => true, true, 10000⟩

def skipSpace (t : Text) : Text :=
  t.dropWhile fun c => c = ' ' || c = '\t' || c = '\n' || c = '\r'

def unit? (a b c d : Char) : Option Nat :=
  if [a, b, c, d].all (Text.isDigitIn 16) then some (Text.value 16 [a, b, c, d]) else none

def isHighUnit (n : Nat) : Bool := 0xD800 ≤ n && n < 0xDC00

def isLowUnit (n : Nat) : Bool := 0xDC00 ≤ n && n < 0xE000

def unescaped? : Char → Option Char
  | '"' => some '"'
  | '\\' => some '\\'
  | '/' => some '/'
  | 'b' => some '\x08'
  | 'f' => some '\x0c'
  | 'n' => some '\n'
  | 'r' => some '\r'
  | 't' => some '\t'
  | _ => none

def readUnits : Text → Option (List Nat × Text)
  | [] => none
  | '"' :: rest => some ([], rest)
  | '\\' :: 'u' :: a :: b :: c :: d :: rest =>
    match unit? a b c d with
    | none => none
    | some n => (readUnits rest).map fun (units, rest) => (n :: units, rest)
  | '\\' :: c :: rest =>
    match unescaped? c with
    | none => none
    | some c => (readUnits rest).map fun (units, rest) => (c.toNat :: units, rest)
  | c :: rest =>
    if c.toNat < 0x20 then none
    else (readUnits rest).map fun (units, rest) => (c.toNat :: units, rest)

/-- Joins each high unit with the low unit behind it; neither may stand alone. -/
def joinUnits? : List Nat → Option Text
  | [] => some []
  | [n] => if isHighUnit n || isLowUnit n then none else some [Char.ofNat n]
  | n :: low :: rest =>
    if isHighUnit n then
      if isLowUnit low then
        (joinUnits? rest).map
          (Char.ofNat (0x10000 + (n - 0xD800) * 0x400 + (low - 0xDC00)) :: ·)
      else none
    else if isLowUnit n then none
    else (joinUnits? (low :: rest)).map (Char.ofNat n :: ·)

def readString (t : Text) : Option (Text × Text) :=
  match readUnits t with
  | none => none
  | some (units, rest) => (joinUnits? units).map fun t => (t, rest)

def readDigits (t : Text) : Text × Text :=
  (t.takeWhile (Text.isDigitIn 10), t.dropWhile (Text.isDigitIn 10))

def readFraction : Text → Option (Option Text × Text)
  | '.' :: rest =>
    let (digits, rest) := readDigits rest
    if digits.isEmpty then none else some (some digits, rest)
  | rest => some (none, rest)

def readPower : Text → Option (Option Int × Text)
  | [] => some (none, [])
  | c :: rest =>
    if c = 'e' || c = 'E' then
      let (negative, rest) := Numeral.readSign rest
      let (digits, rest) := readDigits rest
      if digits.isEmpty then none
      else
        let n : Int := Text.value 10 digits
        some (some (if negative then -n else n), rest)
    else some (none, c :: rest)

/-- Reads a number whose sign has been read; a whole number has no leading zeros. -/
def readNumber (limits : Limits) (negative : Bool) (t : Text) : Option (Json × Text) := do
  let (whole, rest) := readDigits t
  if whole.isEmpty || (whole.length > 1 && whole.head? == some '0') then none
  else
    let (fraction, rest) ← readFraction rest
    let (power, rest) ← readPower rest
    let n : Int := Text.value 10 whole
    let signed := if negative then -n else n
    if fraction.isNone && power.isNone && limits.keepsInt signed then some (.int signed, rest)
    else
      let x := Numeral.toFloat ⟨negative, whole, fraction.getD [], power.getD 0⟩
      if x.isInf && !limits.overflow then none else some (.float x, rest)

mutual
/-- Reads one value; `fuel` bounds the calls, `depth` the enclosing brackets still allowed. -/
def readValue (limits : Limits) : Nat → Nat → Text → Option (Json × Text)
  | 0, _, _ => none
  | fuel + 1, depth, t =>
    match skipSpace t with
    | 'n' :: 'u' :: 'l' :: 'l' :: rest => some (.null, rest)
    | 't' :: 'r' :: 'u' :: 'e' :: rest => some (.bool true, rest)
    | 'f' :: 'a' :: 'l' :: 's' :: 'e' :: rest => some (.bool false, rest)
    | '"' :: rest => (readString rest).map fun (t, rest) => (.text t, rest)
    | '-' :: rest => readNumber limits true rest
    | '[' :: rest =>
      match depth with
      | 0 => none
      | depth + 1 =>
        match skipSpace rest with
        | ']' :: rest => some (.array [], rest)
        | rest => (readItems limits fuel depth rest).map fun (l, rest) => (.array l, rest)
    | '\x7b' :: rest =>
      match depth with
      | 0 => none
      | depth + 1 =>
        match skipSpace rest with
        | '\x7d' :: rest => some (.object [], rest)
        | rest => (readFields limits fuel depth [] rest).map fun (l, rest) => (.object l, rest)
    | rest => readNumber limits false rest
def readItems (limits : Limits) : Nat → Nat → Text → Option (List Json × Text)
  | 0, _, _ => none
  | fuel + 1, depth, t =>
    match readValue limits fuel depth t with
    | none => none
    | some (item, rest) =>
      match skipSpace rest with
      | ']' :: rest => some ([item], rest)
      | ',' :: rest => (readItems limits fuel depth rest).map fun (l, rest) => (item :: l, rest)
      | _ => none
/-- Reads the fields of an object up to its bracket, adding them to those already read. -/
def readFields (limits : Limits) : Nat → Nat → Fields → Text → Option (Fields × Text)
  | 0, _, _, _ => none
  | fuel + 1, depth, fields, t =>
    match skipSpace t with
    | '"' :: rest =>
      match readString rest with
      | none => none
      | some (name, rest) =>
        match skipSpace rest with
        | ':' :: rest =>
          match readValue limits fuel depth rest with
          | none => none
          | some (value, rest) =>
            let fields := Fields.put name value fields
            match skipSpace rest with
            | '\x7d' :: rest => some (fields, rest)
            | ',' :: rest => readFields limits fuel depth fields rest
            | _ => none
        | _ => none
    | _ => none
end

def read? (limits : Limits) (t : Text) : Option Json :=
  match readValue limits (2 * t.length + 2) limits.depth t with
  | some (value, rest) => if (skipSpace rest).isEmpty then some value else none
  | none => none

end SoundLaw.Json
