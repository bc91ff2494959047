import SoundLaw.Rule.Basic
import SoundLaw.Regex.Literal
import SoundLaw.Regex.Reader
import SoundLaw.Regex.Matcher

/-!
The contexts of character rules. Macro names in a context stand for one of their members; a
context that is the boundary sign stands for an end of the word; and target and contexts together
make one pattern.
-/
namespace SoundLaw

def boundary : Text := ['#']

namespace Macros

/-- The macros that can stand in a context: those with a name and members. -/
def usable (macros : Macros) : Macros := macros.filter fun m => !m.1.isEmpty && !m.2.isEmpty

def names (macros : Macros) : List Text := macros.map Prod.fst

def members (name : Text) : Macros → List Text
  | [] => []
  | (n, l) :: rest => if n = name then l else members name rest

end Macros

def longestFirst (l : List Text) : List Text := sortBy (fun a b => decide (b.length ≤ a.length)) l

def anyTextOf (l : List Text) : Text :=
  List.intercalate "|".toList ((longestFirst l).map Regex.escapeText)

def alternation (members : List Text) : Text := "(?:" ++ anyTextOf members ++ ")"

/-- The context with its macro names replaced. The boundary sign alone stays as it is. -/
def expandContext (macros : Macros) (context : Text) : Text :=
  if context.isEmpty || context = boundary || macros.usable.isEmpty then context
  else match Regex.compile (anyTextOf macros.usable.names) with
    | .ok p => Regex.replaceEach p (fun name => alternation (macros.usable.members name)) context
    -- a pattern of escaped names is never refused
    | .error _ => context

/-- The pattern of a target between contexts that are expanded already. -/
def rulePattern (target before after : Text) : Text :=
  let literal := Regex.escapeText target
  if before = boundary && after = boundary then "^" ++ literal ++ "\\Z"
  else if before = boundary then
    if after.isEmpty then "^" ++ literal else "^" ++ literal ++ "(?=" ++ after ++ ")"
  else if after = boundary then
    if before.isEmpty then literal ++ "\\Z" else "(?<=" ++ before ++ ")" ++ literal ++ "\\Z"
  else
    let behind : Text := if before.isEmpty then [] else "(?<=" ++ before ++ ")"
    let ahead : Text := if after.isEmpty then [] else "(?=" ++ after ++ ")"
    behind ++ literal ++ ahead

end SoundLaw
