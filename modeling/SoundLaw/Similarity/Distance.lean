import SoundLaw.Phonology.Symbols
import SoundLaw.Similarity.Scale

/-!
How far two phonemes are apart: manner, place and voicing count with weights of their own, the
remaining features by the share that is not common.
-/
namespace SoundLaw
open Scale
variable {α : Type} [Scale α]

namespace Weight

def manner : α := 0.40
def place : α := 0.35
def voicing : α := 0.15
def other : α := 0.10

def gap : α := 0.6

end Weight

def within (dimension features : List Text) : List Text := features.filter fun f => f ∈ dimension

def share (dimension a b : List Text) : Bool := a.any fun f => decide (f ∈ b) && decide (f ∈ dimension)

/-- The part of the features outside all dimensions that is common; all of it where there are none. -/
def otherOverlap (a b : List Text) : α :=
  let restA := a.filter fun f => f ∉ Feature.classified
  let restB := b.filter fun f => f ∉ Feature.classified
  if unionCount restA restB = 0 then 1.0
  else count (commonCount restA restB) / count (unionCount restA restB)

def featureDistance (a b : List Text) : α :=
  let manner : α := if share Feature.manners a b then 0.0 else Weight.manner
  let place : α := if share Feature.places a b then 0.0 else Weight.place
  let voicing : α :=
    if sameSet (within Feature.voicings a) (within Feature.voicings b) then 0.0 else Weight.voicing
  let other : α := (1.0 - otherOverlap a b) * Weight.other
  let total : α := 0.0 + Weight.manner + Weight.place + Weight.voicing + Weight.other
  lesser ((0.0 + manner + place + voicing + other) / total) 1.0

/-- The distance of two phonemes. Unknown phonemes compare by identity, and phonemes of different
types are as far apart as can be. -/
def phonemeDistance (m : Model) (a b : Text) : α :=
  if a = b then 0.0
  else match m.features? a, m.features? b with
    | some fa, some fb =>
      if sameSet (within Feature.types fa) (within Feature.types fb) then featureDistance fa fb
      else 1.0
    | _, _ => 1.0

end SoundLaw
