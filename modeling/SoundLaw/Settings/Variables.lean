import SoundLaw.Text.Blank

/-!
Variables: named texts in the order in which they were set.
-/
namespace SoundLaw

abbrev Variables := List (Text × Text)

namespace Variables

/-- The value set last, under any name of which `standard` makes `name`. -/
def last? {α : Type} (standard : Text → Text) (name : Text) : List (Text × α) → Option α
  | [] => none
  | (n, value) :: rest =>
    match last? standard name rest with
    | some later => some later
    | none => if standard n = name then some value else none

/-- A reference to a variable: its name, and what stands for it where there is none. -/
structure Reference where
  name : Text
  default : Text

def readReference (t : Text) : Option (Reference × Text) :=
  let isNamePart (c : Char) : Bool := c ≠ '\x7d' && c ≠ ':'
  let name := t.takeWhile isNamePart
  match t.dropWhile isNamePart with
  | '\x7d' :: rest => some (⟨name, []⟩, rest)
  | ':' :: '-' :: rest =>
    match rest.dropWhile (· ≠ '\x7d') with
    | _ :: after => some (⟨name, rest.takeWhile (· ≠ '\x7d')⟩, after)
    | [] => none
  | _ => none

def expandFrom (lookUp? : Text → Option Text) : Nat → Text → Text
  | _, [] => []
  | skip + 1, _ :: rest => expandFrom lookUp? skip rest
  | 0, '$' :: '\x7b' :: rest =>
    match readReference rest with
    | some (reference, after) =>
      (lookUp? reference.name).getD reference.default ++
        expandFrom lookUp? (rest.length + 1 - after.length) ('\x7b' :: rest)
    | none => '$' :: expandFrom lookUp? 0 ('\x7b' :: rest)
  | 0, c :: rest => c :: expandFrom lookUp? 0 rest

def expand (lookUp? : Text → Option Text) (t : Text) : Text := expandFrom lookUp? 0 t

end Variables
end SoundLaw
