import SoundLaw.Phonology.Expression

/-!
Sound laws: rules that change literal texts in a context, rules that change phonemes by their
features, and ordered sets of rules.
-/
namespace SoundLaw

inductive Mode where
  | character | feature
deriving DecidableEq

def Mode.text : Mode → Text
  | .character => "character"
  | .feature => "feature"

/-- Changes literal targets. Target and replacement hold alternatives between blanks; the
contexts are patterns with macro names. -/
structure CharacterRule where
  id : Text
  description : Text := []
  target : Text := []
  replacement : Text := []
  before : Text := []
  after : Text := []
  exceptions : List Text := []
deriving DecidableEq

/-- Changes the phonemes that an expression describes. A rule without target or replacement is
unfinished and changes nothing. -/
structure FeatureRule where
  id : Text
  description : Text := []
  target : Option Expression := none
  replacement : Option Replacement := none
  before : Option Expression := none
  after : Option Expression := none
  exceptions : List Text := []
deriving DecidableEq

inductive Rule where
  | character (rule : CharacterRule)
  | feature (rule : FeatureRule)
deriving DecidableEq

namespace Rule

def id : Rule → Text
  | .character rule => rule.id
  | .feature rule => rule.id

def exceptions : Rule → List Text
  | .character rule => rule.exceptions
  | .feature rule => rule.exceptions

def absent : Text := "None"

def describe : Rule → Text
  | .character rule =>
    if rule.description.isEmpty then rule.target ++ " → " ++ rule.replacement
    else rule.description
  | .feature rule =>
    if rule.description.isEmpty then
      (rule.target.map Expression.print).getD absent ++ " → " ++
        (rule.replacement.map Replacement.print).getD absent
    else rule.description

end Rule

/-- A group of rules; groups apply by ascending order. -/
structure RuleSet where
  id : Text
  name : Text := []
  order : Int := 0
  rules : List Rule := []
deriving DecidableEq

structure Config where
  language : Text := []
  ruleSets : List RuleSet := []
deriving DecidableEq

abbrev Macros := List (Text × List Text)

structure Inventory where
  consonants : List Text := []
  vowels : List Text := []
  macros : Macros := []
deriving DecidableEq

namespace Macros

def put (name : Text) (members : List Text) : Macros → Macros
  | [] => [(name, members)]
  | (n, old) :: rest =>
    if n = name then (n, members) :: rest else (n, old) :: put name members rest

/-- The macros `V` and `C`, unless others of these names replace them. -/
def ofPhonemes (consonants vowels : List Text) (others : Macros) : Macros :=
  others.foldl (fun macros m => macros.put m.1 m.2) [("V".toList, vowels), ("C".toList, consonants)]

end Macros

namespace Inventory

def phonemes (inventory : Inventory) : List Text := inventory.consonants ++ inventory.vowels

def allMacros (inventory : Inventory) : Macros :=
  Macros.ofPhonemes inventory.consonants inventory.vowels inventory.macros

end Inventory
end SoundLaw
