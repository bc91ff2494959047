import SoundLaw.Schema.Issue
import SoundLaw.Journal
import SoundLaw.Number.Whole

/-!
Checks read a typed value out of a JSON value. They collect the issues of all parts; a problem
in one part ends the check.
-/
namespace SoundLaw

abbrev Checked (α : Type) := Journal Refusal α

namespace Checked
variable {α β γ : Type}

def fail (fault : Fault) : Checked α := Journal.raise (.issues [⟨[], fault⟩])

/-- Reports issues as seen from outside `place`. -/
def inside (place : Place) (c : Checked α) : Checked α := c.mapError (Refusal.inside place)

/-- Two outcomes together: issues of both, but a problem alone. -/
def bothOutcomes : Except Refusal α → Except Refusal β → Except Refusal (α × β)
  | .ok a, .ok b => .ok (a, b)
  | .ok _, .error r => .error r
  | .error r, .ok _ => .error r
  | .error (.problem p), .error _ => .error (.problem p)
  | .error (.issues _), .error (.problem p) => .error (.problem p)
  | .error (.issues l), .error (.issues l') => .error (.issues (l ++ l'))

/-- Checks two parts, the second one even where the first has issues. -/
def both (first : Checked α) (second : Checked β) : Checked (α × β) :=
  match first.outcome with
  | .error (.problem p) => ⟨first.events, .error (.problem p)⟩
  | outcome => ⟨first.events ++ second.events, bothOutcomes outcome second.outcome⟩

def eachFrom (check : Json → Checked α) : Nat → List Json → Checked (List α)
  | _, [] => pure []
  | i, item :: rest =>
    (fun (a, l) => a :: l) <$> both (inside (.item i) (check item)) (eachFrom check (i + 1) rest)

end Checked

namespace Json
open Checked
variable {α : Type}

def checkText : Json → Checked Text
  | .text t => pure t
  | _ => fail .notText

def checkList (check : Json → Checked α) : Json → Checked (List α)
  | .array items => eachFrom check 0 items
  | _ => fail .notList

def checkTexts : Json → Checked (List Text) := checkList checkText

/-- Whole numbers, truth values, and what spells or equals a whole number. -/
def checkWhole : Json → Checked Int
  | .int n => pure n
  | .bool b => pure (if b then 1 else 0)
  | .float x =>
    match wholeOfFloat x with
    | .ok n => pure n
    | .error .notFinite => fail .notFinite
    | .error .fractional => fail .fractional
    | .error .tooGreat => fail .tooGreat
  | .text t =>
    match wholeOfText? t with
    | some n => pure n
    | none => fail .unreadableWhole
  | _ => fail .notWhole

def checkShare (x : Float) : Checked Float :=
  if !(x ≤ 1.0) then fail .aboveOne
  else if !(x ≥ 0.0) then fail .belowZero
  else pure x

/-- Numbers, truth values and what spells a number, from zero to one. -/
def checkUnitReal : Json → Checked Float
  | .float x => checkShare x
  | .int n => checkShare (floatOfInt n)
  | .bool b => checkShare (if b then 1.0 else 0.0)
  | .text t =>
    match realOfText? t with
    | some x => checkShare x
    | none => fail .unreadableReal
  | _ => fail .notReal

def checkFieldValues (check : Json → Checked α) : Fields → Checked (List (Text × α))
  | [] => pure []
  | (name, value) :: rest =>
    (fun (a, l) => (name, a) :: l) <$>
      both (inside (.field name) (check value)) (checkFieldValues check rest)

def checkTable (check : Json → Checked α) : Json → Checked (List (Text × α))
  | .object fields => checkFieldValues check fields
  | _ => fail .notObject

def checkRecord (name : Text) (check : Fields → Checked α) : Json → Checked α
  | .object fields => check fields
  | _ => fail (.notRecord name)

def checkOptional (check : Json → Checked α) : Json → Checked (Option α)
  | .null => pure none
  | value => some <$> check value

end Json

namespace Fields
open Checked
variable {α : Type}

def required (name : Text) (check : Json → Checked α) (fields : Fields) : Checked α :=
  match fields.get? name with
  | some value => inside (.field name) (check value)
  | none => inside (.field name) (fail .missing)

/-- A field with a value of its own where it is absent. -/
def defaulted (name : Text) (default : α) (check : Json → Checked α) (fields : Fields) : Checked α :=
  match fields.get? name with
  | some value => inside (.field name) (check value)
  | none => pure default

def only (known : List Text) : Fields → Checked Unit
  | [] => pure ()
  | (name, _) :: rest =>
    (fun _ => ()) <$>
      both (if name ∈ known then pure () else inside (.field name) (fail .unexpected))
        (only known rest)

end Fields
end SoundLaw
