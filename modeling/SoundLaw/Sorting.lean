/-!
Stable sorting by insertion, and lists read as finite sets.
-/
namespace SoundLaw

variable {α : Type}

def insertSorted (le : α → α → Bool) (a : α) : List α → List α
  | [] => [a]
  | b :: rest => if le a b then a :: b :: rest else b :: insertSorted le a rest

/-- Sorts by `le`; elements that are equal in the order keep their places. -/
def sortBy (le : α → α → Bool) : List α → List α
  | [] => []
  | a :: rest => insertSorted le a (sortBy le rest)

variable [DecidableEq α]

def distinct : List α → List α
  | [] => []
  | a :: rest => a :: (distinct rest).filter fun b => b ≠ a

def commonCount (a b : List α) : Nat := ((distinct a).filter fun x => x ∈ b).length

def unionCount (a b : List α) : Nat := (distinct (a ++ b)).length

def sameSet (a b : List α) : Bool := a.all (fun x => decide (x ∈ b)) && b.all fun x => decide (x ∈ a)

end SoundLaw
