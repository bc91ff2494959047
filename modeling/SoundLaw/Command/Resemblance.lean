import SoundLaw.Sorting
import SoundLaw.Text.Basic

/-!
Names that look alike. Two texts share their longest common piece, then what the parts on both
sides of it share; they are alike if that is most of them.
-/
namespace SoundLaw.Resemblance

def commonStart : Text → Text → Nat
  | a :: as, b :: bs => if a = b then commonStart as bs + 1 else 0
  | _, _ => 0

structure Piece where
  first : Nat
  second : Nat
  length : Nat

def longestFrom (i : Nat) (a b : Text) (best : Piece) : Piece :=
  (List.range b.length).foldl (fun best j =>
    let n := commonStart a (b.drop j)
    if best.length < n then ⟨i, j, n⟩ else best) best

def longest (a b : Text) : Piece :=
  (List.range a.length).foldl (fun best i => longestFrom i (a.drop i) b best) ⟨0, 0, 0⟩

/-- How many characters two texts share; `fuel` bounds the pieces. -/
def shared : Nat → Text → Text → Nat
  | 0, _, _ => 0
  | fuel + 1, a, b =>
    let p := longest a b
    if p.length = 0 then 0
    else
      p.length + shared fuel (a.take p.first) (b.take p.second) +
        shared fuel (a.drop (p.first + p.length)) (b.drop (p.second + p.length))

def alike (a b : Text) : Bool :=
  decide (3 * (a.length + b.length) ≤ 10 * shared (a.length + 1) a b)

/-- The names among `known` that look like `name`, at most three, in alphabetical order. -/
def among (known : List Text) (name : Text) : List Text :=
  let ratioLe (a b : Text) : Bool :=
    let x := shared (a.length + 1) a name
    let y := shared (b.length + 1) b name
    decide (y * (a.length + name.length) ≤ x * (b.length + name.length))
  sortBy Text.le ((sortBy ratioLe (known.filter fun k => alike k name)).take 3)

end SoundLaw.Resemblance
