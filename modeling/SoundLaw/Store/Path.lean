import SoundLaw.Text.Basic

/-!
Paths as rows of names.
-/
namespace SoundLaw

/-- The names on the way; a slash as first name stands for the root of all paths. -/
abbrev Path := List Text

namespace Path

def up : Text := ".."

/-- The path of a text; empty names and names of a single dot lead nowhere and are left out. -/
def ofText (t : Text) : Path :=
  let names := (Text.split (· = '/') t).filter fun name => !name.isEmpty && name ≠ ['.']
  if t.head? = some '/' then ['/'] :: names else names

def isAbsolute : Path → Bool
  | first :: _ => first = ['/']
  | [] => false

def join (base path : Path) : Path := if isAbsolute path then path else base ++ path

def text : Path → Text
  | [] => ['.']
  | first :: rest =>
    if first = ['/'] then '/' :: List.intercalate ['/'] rest
    else List.intercalate ['/'] (first :: rest)

end Path
end SoundLaw
