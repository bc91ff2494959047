import SoundLaw.Text.Blank

/-!
Texts written as patterns that match just themselves.
-/
namespace SoundLaw.Regex

def isSpecial (c : Char) : Bool :=
  c ∈ ['(', ')', '[', ']', '\x7b', '\x7d', '?', '*', '+', '|', '^', '$', '\\', '.', '-', '#', '&',
    '~']

/-- Puts a backslash before special and blank characters. -/
def escapeText (t : Text) : Text :=
  t.flatMap fun c => if isSpecial c || isBlank c then ['\\', c] else [c]

end SoundLaw.Regex
