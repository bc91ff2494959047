/-!
Texts are lists of characters: lengths and positions count code points, and every law about
a text is a law about a list.
-/
namespace SoundLaw

abbrev Text := List Char

instance : Coe String Text := ⟨String.toList⟩

instance : LawfulBEq Text := inferInstanceAs (LawfulBEq (List Char))

namespace Text

def occurs (part : Text) : Text → Bool
  | [] => part.isEmpty
  | c :: rest => part.isPrefixOf (c :: rest) || occurs part rest

/-- The pieces between the characters that `p` marks; there is always one more piece than marks. -/
def split (p : Char → Bool) : Text → List Text
  | [] => [[]]
  | c :: rest =>
    if p c then [] :: split p rest
    else match split p rest with
      | [] => [[c]]
      | piece :: pieces => (c :: piece) :: pieces

def le : Text → Text → Bool
  | [], _ => true
  | _ :: _, [] => false
  | a :: as, b :: bs => if a = b then le as bs else decide (a.toNat < b.toNat)

def without (part text : Text) : Text :=
  if part.isPrefixOf text then text.drop part.length else text

theorem split_ne_nil (p : Char → Bool) (t : Text) : split p t ≠ [] := by
  induction t with
  | nil => simp [split]
  | cons c rest ih =>
    simp only [split]
    split
    · simp
    · split <;> simp

end Text
end SoundLaw
