import SoundLaw.Sorting
import SoundLaw.Text.Blank
import SoundLaw.Problem

/-!
Feature expressions such as `[+voiced, -stop]`: features a phoneme must carry and features it
must not, and feature replacements, which add and take away features. An expression is written
and read in the same notation.
-/
namespace SoundLaw

structure Expression where
  positive : List Text
  negative : List Text
  disjoint : ∀ f ∈ positive, f ∉ negative
deriving DecidableEq

structure Replacement where
  set : List Text
  remove : List Text
deriving DecidableEq

def contradictions (positive negative : List Text) : List Text :=
  sortBy Text.le (distinct (positive.filter fun f => f ∈ negative))

def signed (plus minus : List Text) : Text :=
  '[' :: List.intercalate ", ".toList (plus.map ('+' :: ·) ++ minus.map ('-' :: ·)) ++ [']']

namespace Expression

def none : Expression := ⟨[], [], by simp⟩

/-- The expression with these features, unless they contradict each other. -/
def ofLists? (positive negative : List Text) : Except (List Text) Expression :=
  if h : ∀ f ∈ positive, f ∉ negative then .ok ⟨positive, negative, h⟩
  else .error (contradictions positive negative)

def isEmpty (e : Expression) : Bool := e.positive.isEmpty && e.negative.isEmpty

def print (e : Expression) : Text := signed e.positive e.negative

inductive Part where
  | blank
  | nameless (part : Text)
  | required (name : Text)
  | excluded (name : Text)
deriving DecidableEq

def readPart (part : Text) : Part :=
  match part.strip with
  | [] => .blank
  | '-' :: rest => if (Text.strip rest).isEmpty then .nameless part.strip else .excluded (Text.strip rest)
  | '+' :: rest => if (Text.strip rest).isEmpty then .nameless part.strip else .required (Text.strip rest)
  | name => .required name

def unbracket (t : Text) : Text :=
  let opened := match t with
    | '[' :: rest => rest
    | t => t
  if opened.getLast? = some ']' then opened.dropLast else opened

def parts (t : Text) : List Part := (Text.split (· = ',') (unbracket t.strip)).map readPart

def required (l : List Part) : List Text :=
  l.filterMap fun | .required name => some name | _ => Option.none

def excluded (l : List Part) : List Text :=
  l.filterMap fun | .excluded name => some name | _ => Option.none

/-- Reads an expression. The first nameless part is refused, then a contradiction. -/
def parse (t : Text) : Except Problem Expression :=
  let l := parts t
  match l.findSome? fun | .nameless part => some part | _ => Option.none with
  | some part => .error (.invalidExpression t (some ("empty feature name in " ++ part.quoted)))
  | Option.none =>
    match ofLists? (required l) (excluded l) with
    | .ok e => .ok e
    | .error both =>
      .error (.invalidExpression t
        (some ("features both required and excluded: " ++ List.intercalate ", ".toList both)))

end Expression

namespace Replacement

def print (r : Replacement) : Text := signed r.set r.remove

def apply (r : Replacement) (features : List Text) : List Text :=
  features.filter (fun f => f ∉ r.remove) ++ r.set

def summary (r : Replacement) : Text :=
  List.intercalate ", ".toList
    ([List.intercalate ",".toList (r.set.map ('+' :: ·)),
      List.intercalate ",".toList (r.remove.map ('-' :: ·))].filter fun t => !t.isEmpty)

end Replacement
end SoundLaw
