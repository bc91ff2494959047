import SoundLaw.Text.Digits
import SoundLaw.Unicode.Property

/-!
Quoted texts: a text between quotes, with the characters escaped that could not be seen or
would end it.
-/
namespace SoundLaw.Text

/-- Double quotes only around a text that holds single quotes and no double ones. -/
def quoteMark (t : Text) : Char := if t.contains '\'' && !t.contains '"' then '"' else '\''

def escapeQuoted (quote c : Char) : Text :=
  if c = '\\' then "\\\\"
  else if c = quote then ['\\', quote]
  else if c = '\n' then "\\n"
  else if c = '\t' then "\\t"
  else if c = '\r' then "\\r"
  else if Unicode.isPrintable c.toNat then [c]
  else if c.toNat < 0x100 then '\\' :: 'x' :: hex 2 c.toNat
  else if c.toNat < 0x10000 then '\\' :: 'u' :: hex 4 c.toNat
  else '\\' :: 'U' :: hex 8 c.toNat

def quoted (t : Text) : Text :=
  quoteMark t :: t.flatMap (escapeQuoted (quoteMark t)) ++ [quoteMark t]

def quotedList (l : List Text) : Text := '[' :: List.intercalate ", ".toList (l.map quoted) ++ [']']

end SoundLaw.Text
