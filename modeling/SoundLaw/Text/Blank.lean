import SoundLaw.Text.Basic

/-!
Blank characters, and the two readings of a text that skip them: `strip` and `words`.
-/
namespace SoundLaw

def blankRanges : List (Nat × Nat) :=
  [(0x09, 0x0D), (0x1C, 0x20), (0x85, 0x85), (0xA0, 0xA0), (0x1680, 0x1680), (0x2000, 0x200A),
   (0x2028, 0x2029), (0x202F, 0x202F), (0x205F, 0x205F), (0x3000, 0x3000)]

/-- Spaces, line and paragraph separators, and the separating control characters. -/
def isBlank (c : Char) : Bool := blankRanges.any fun r => r.1 ≤ c.toNat && c.toNat ≤ r.2

namespace Text

def stripStart (t : Text) : Text := t.dropWhile isBlank

def stripEnd (t : Text) : Text := (t.reverse.dropWhile isBlank).reverse

def strip (t : Text) : Text := t.stripStart.stripEnd

def words (t : Text) : List Text := (split isBlank t).filter fun piece => !piece.isEmpty

end Text

end SoundLaw
