import SoundLaw.Phonology.Model

/-!
An index from features to the phonemes that carry them. Looking an expression up in the index
finds the phonemes that it describes, in the order of the model.
-/
namespace SoundLaw

structure FeatureIndex where
  order : List Text
  carriers : List (Text × List Text)

namespace FeatureIndex

def addCarrier (feature phoneme : Text) : List (Text × List Text) → List (Text × List Text)
  | [] => [(feature, [phoneme])]
  | (f, l) :: rest =>
    if f = feature then (f, phoneme :: l) :: rest else (f, l) :: addCarrier feature phoneme rest

def addPhoneme (carriers : List (Text × List Text)) (entry : Text × List Text) :
    List (Text × List Text) :=
  entry.2.foldl (fun carriers feature => addCarrier feature entry.1 carriers) carriers

def ofModel (m : Model) : FeatureIndex := ⟨m.phonemes, m.entries.foldl addPhoneme []⟩

def carriers? (index : FeatureIndex) (feature : Text) : Option (List Text) :=
  Model.findEntry feature index.carriers

def carriersOf (index : FeatureIndex) (feature : Text) : List Text :=
  (index.carriers? feature).getD []

/-- The phonemes left when these features are looked up after others, which left `candidates`.
Without any feature all phonemes are left; a feature that is not in the index ends the search. -/
def carryingAll (index : FeatureIndex) : Option (List Text) → List Text → List Text
  | candidates, [] => candidates.getD index.order
  | candidates, feature :: rest =>
    match index.carriers? feature with
    | none => []
    | some carriers =>
      let left := match candidates with
        | none => carriers
        | some found => found.filter fun p => p ∈ carriers
      carryingAll index (some left) rest

/-- The phonemes that carry all required features and none of the excluded ones, in their order. -/
def matching (index : FeatureIndex) (e : Expression) : List Text :=
  let found := e.negative.foldl
    (fun left feature => left.filter fun p => p ∉ index.carriersOf feature)
    (index.carryingAll none e.positive)
  index.order.filter fun p => p ∈ found

end FeatureIndex
end SoundLaw
