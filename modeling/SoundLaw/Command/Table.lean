import SoundLaw.Command.Screen

/-!
Tables with a heavy head: every column as wide as its widest cell, with a blank on both sides.
-/
namespace SoundLaw.Table

def linesOf (cell : Text) : List Text := Text.split (· = '\n') cell

def cellWidth (cell : Text) : Nat := ((linesOf cell).map Text.cells).foldl max 0

def widths (head : List Text) (rows : List (List Text)) : List Nat :=
  rows.foldl (fun widths row => List.zipWith max widths (row.map cellWidth)) (head.map cellWidth)

structure Rule where
  left : Char
  fill : Char
  cross : Char
  right : Char

def Rule.draw (r : Rule) (widths : List Nat) : Text :=
  r.left :: List.intercalate [r.cross] (widths.map fun w => List.replicate (w + 2) r.fill) ++
    [r.right, '\n']

def top : Rule := ⟨'┏', '━', '┳', '┓'⟩

def middle : Rule := ⟨'┡', '━', '╇', '┩'⟩

def bottom : Rule := ⟨'└', '─', '┴', '┘'⟩

def pad (width : Nat) (t : Text) : Text :=
  ' ' :: t ++ List.replicate (width - t.cells) ' ' ++ [' ']

def rowLine (edge : Char) (widths : List Nat) (row : List Text) (i : Nat) : Text :=
  let parts := List.zipWith (fun w cell => pad w ((linesOf cell).getD i [])) widths row
  edge :: List.intercalate [edge] parts ++ [edge, '\n']

def rowLines (edge : Char) (widths : List Nat) (row : List Text) : Text :=
  let height := (row.map fun cell => (linesOf cell).length).foldl max 1
  (List.range height).flatMap (rowLine edge widths row)

def draw (head : List Text) (rows : List (List Text)) : Text :=
  let head := head.map Screen.shown
  let rows := rows.map fun row => row.map Screen.shown
  let w := widths head rows
  top.draw w ++ rowLines '┃' w head ++ middle.draw w ++ rows.flatMap (rowLines '│' w) ++
    bottom.draw w

end SoundLaw.Table
