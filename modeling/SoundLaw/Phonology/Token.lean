import SoundLaw.Text.Basic

/-!
Words cut into tokens: at each place the longest entry of an inventory, or one character where
no entry fits. The tokens of a word join to the word.
-/
namespace SoundLaw

/-- The longest entry that begins the word; empty where none does. -/
def longestAt (word : Text) : List Text → Text
  | [] => []
  | entry :: rest =>
    let best := longestAt word rest
    if entry.isPrefixOf word && best.length < entry.length then entry else best

/-- Passes over `skip` characters that belong to the token before, then cuts the next token. -/
def cutFrom (inventory : List Text) : Nat → Text → List Text
  | _, [] => []
  | skip + 1, _ :: rest => cutFrom inventory skip rest
  | 0, c :: rest =>
    let n := (longestAt (c :: rest) inventory).length
    (c :: rest.take (n - 1)) :: cutFrom inventory (n - 1) rest

def tokenize (inventory : List Text) (word : Text) : List Text := cutFrom inventory 0 word

def spell (tokens : List Text) : Text := tokens.flatten

theorem cutFrom_flatten (inventory : List Text) (word : Text) (skip : Nat) :
    (cutFrom inventory skip word).flatten = word.drop skip := by
  induction word generalizing skip with
  | nil => simp [cutFrom]
  | cons c rest ih =>
    cases skip with
    | succ n => simp [cutFrom, ih]
    | zero => simp [cutFrom, ih, List.take_append_drop]

theorem spell_tokenize (inventory : List Text) (word : Text) :
    spell (tokenize inventory word) = word := by
  simp [spell, tokenize, cutFrom_flatten]

end SoundLaw
