import SoundLaw.Similarity.Distance
import SoundLaw.Phonology.Token

/-!
The cost of turning one row of tokens into another: substitutions cost the distance of the
phonemes, insertions and deletions a fixed gap. The costs are computed row by row.
-/
namespace SoundLaw
open Scale
variable {α : Type} [Scale α]

/-- The rest of a row: `left` is the cost just computed, `above` the row before from the cell
diagonal to the next one on. -/
def cellsFrom (distance : Text → Text → α) (a : Text) (left : α) : List Text → List α → List α
  | b :: bs, diagonal :: up :: above =>
    let cost := lesser (lesser (diagonal + distance a b) (up + Weight.gap)) (left + Weight.gap)
    cost :: cellsFrom distance a cost bs (up :: above)
  | _, _ => []

/-- The row of the `i`-th token `a`, from the row before it. -/
def nextRow (distance : Text → Text → α) (i : Nat) (a : Text) (bs : List Text) (above : List α) :
    List α :=
  let first := count i * Weight.gap
  first :: cellsFrom distance a first bs above

def lastRow (distance : Text → Text → α) (bs : List Text) : Nat → List Text → List α → List α
  | _, [], row => row
  | i, a :: as, row => lastRow distance bs (i + 1) as (nextRow distance i a bs row)

def borderRow (n : Nat) : List α := (List.range (n + 1)).map fun j => count j * Weight.gap

/-- The least cost of turning `as` into `bs`. -/
def editDistance (m : Model) (as bs : List Text) : α :=
  ((lastRow (phonemeDistance m) bs 1 as (borderRow bs.length)).getLast?).getD 0.0

/-- The cost relative to that of gaps alone, at most one. -/
def normalizedDistance (m : Model) (as bs : List Text) : α :=
  let longest := max as.length bs.length
  if longest = 0 then 0.0
  else lesser (editDistance m as bs / (count longest * Weight.gap)) 1.0

def wordDistance (m : Model) (inventory : List Text) (a b : Text) : α :=
  normalizedDistance m (tokenize inventory a) (tokenize inventory b)

end SoundLaw
