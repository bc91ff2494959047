import SoundLaw.Similarity.Edit
import Mathlib.Data.List.Basic

/-!
The table of costs behind the edit distance. A cell stands for two rows of tokens, read from their
last tokens back: on the border it holds gaps alone, and inside the least of the three ways that
lead there. The rows that are computed are the rows of this table.
-/
namespace SoundLaw
open Scale
variable {α : Type} [Scale α]

/-- The cell of two rows of tokens, last tokens first. -/
def cell (distance : Text → Text → α) : List Text → List Text → α
  | [], bs => count bs.length * Weight.gap
  | a :: as, [] => count (a :: as).length * Weight.gap
  | a :: as, b :: bs =>
    lesser (lesser (cell distance as bs + distance a b) (cell distance as (b :: bs) + Weight.gap))
      (cell distance (a :: as) bs + Weight.gap)
termination_by as bs => as.length + bs.length

def rowFrom (distance : Text → Text → α) (as before : List Text) : List Text → List α
  | [] => [cell distance as before]
  | b :: bs => cell distance as before :: rowFrom distance as (b :: before) bs

variable (distance : Text → Text → α)

theorem rowFrom_eq (as before bs : List Text) :
    rowFrom distance as before bs =
      cell distance as before :: (rowFrom distance as before bs).tail := by
  cases bs <;> rfl

theorem rowFrom_last (as before bs : List Text) :
    (rowFrom distance as before bs).getLast? = some (cell distance as (bs.reverse ++ before)) := by
  induction bs generalizing before with
  | nil => rfl
  | cons b bs ih =>
    rw [rowFrom, rowFrom_eq, List.getLast?_cons_cons, ← rowFrom_eq, ih, List.reverse_cons,
      List.append_assoc, List.singleton_append]

theorem cellsFrom_eq (a : Text) (as before bs : List Text) :
    cellsFrom distance a (cell distance (a :: as) before) bs (rowFrom distance as before bs) =
      (rowFrom distance (a :: as) before bs).tail := by
  induction bs generalizing before with
  | nil => rfl
  | cons b bs ih =>
    have computed : cell distance (a :: as) (b :: before) =
        lesser (lesser (cell distance as before + distance a b)
          (cell distance as (b :: before) + Weight.gap))
          (cell distance (a :: as) before + Weight.gap) := by
      rw [cell]
    rw [rowFrom, rowFrom_eq distance as, cellsFrom, ← computed, ← rowFrom_eq, ih, rowFrom,
      List.tail_cons, ← rowFrom_eq]

theorem nextRow_eq (a : Text) (as bs : List Text) :
    nextRow distance (as.length + 1) a bs (rowFrom distance as [] bs) =
      rowFrom distance (a :: as) [] bs := by
  have border : cell distance (a :: as) [] = count (as.length + 1) * Weight.gap := by
    rw [cell, List.length_cons]
  rw [nextRow, ← border, cellsFrom_eq, ← rowFrom_eq]

theorem borderRow_eq (before bs : List Text) :
    rowFrom distance [] before bs =
      (List.range' before.length (bs.length + 1)).map fun j => count j * Weight.gap := by
  induction bs generalizing before with
  | nil => simp [rowFrom, cell]
  | cons b bs ih =>
    rw [rowFrom, ih, cell, List.length_cons, List.length_cons, @List.range'_succ before.length,
      List.map_cons]

theorem lastRow_eq (as before bs : List Text) :
    lastRow distance bs (before.length + 1) as (rowFrom distance before [] bs) =
      rowFrom distance (as.reverse ++ before) [] bs := by
  induction as generalizing before with
  | nil => rfl
  | cons a as ih =>
    rw [lastRow, nextRow_eq, ← List.length_cons (a := a), ih, List.reverse_cons, List.append_assoc,
      List.singleton_append]

/-- The edit distance is the last cell of the table. -/
theorem editDistance_eq_cell (m : Model) (as bs : List Text) :
    (editDistance m as bs : α) = cell (phonemeDistance m) as.reverse bs.reverse := by
  have border : (borderRow bs.length : List α) = rowFrom (phonemeDistance m) [] [] bs := by
    rw [borderRow_eq, borderRow, List.range_eq_range', List.length_nil]
  have rows := lastRow_eq (phonemeDistance m : Text → Text → α) as [] bs
  rw [List.length_nil, Nat.zero_add, List.append_nil] at rows
  rw [editDistance, border, rows, rowFrom_last, Option.getD_some, List.append_nil]

end SoundLaw
