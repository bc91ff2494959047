import SoundLaw.Command.Grammar
import SoundLaw.Text.Blank

/-!
The help that commands print about themselves.
-/
namespace SoundLaw

namespace OptionRule

def label (o : OptionRule) : Text :=
  let short : Text := match o.short with
    | some letter => ['-', letter, ',', ' ']
    | none => []
  let value : Text := match o.value with
    | some .file => " FILE"
    | some .share => " FLOAT RANGE"
    | none => []
  short ++ o.long ++ value

def remark (o : OptionRule) : Text :=
  let limits : List Text := match o.value with
    | some .share => ["0.0<=x<=1.0"]
    | _ => []
  let notes := limits ++ (if o.required then ["required".toList] else [])
  if notes.isEmpty then o.about
  else o.about ++ "  [" ++ List.intercalate "; ".toList notes ++ "]"

end OptionRule

namespace CommandRule

def columns (rows : List (Text × Text)) : Text :=
  let width := (rows.map fun row => row.1.length).foldl max 0
  rows.flatMap fun (left, right) =>
    "  " ++ left ++ List.replicate (width - left.length + 2) ' ' ++ right ++ "\n"

def firstSentence (t : Text) : Text :=
  let words : List Text := Text.words t
  let before := words.takeWhile fun w => w.getLast? ≠ some '.'
  List.intercalate [' '] (before ++ ((words.drop before.length).take 1))

def help (c : CommandRule) (below : List (Text × CommandRule)) : Text :=
  let options := columns (c.allOptions.map fun o => (o.label, o.remark))
  let commands : Text :=
    if below.isEmpty then []
    else "\nCommands:\n" ++ columns (below.map fun (name, c) => (name, firstSentence c.about))
  c.usage ++ "\n  " ++ c.about ++ "\n\nOptions:\n" ++ options ++ commands

end CommandRule
end SoundLaw
