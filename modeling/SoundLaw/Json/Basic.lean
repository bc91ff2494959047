import SoundLaw.Number.Shortest
import SoundLaw.Text.Quoted

/-!
JSON values. Whole numbers have any size and stay apart from floating-point numbers; an object
keeps its fields in order and holds every name once.
-/
namespace SoundLaw

inductive Json where
  | null
  | bool (value : Bool)
  | int (value : Int)
  | float (value : Float)
  | text (value : Text)
  | array (items : List Json)
  | object (fields : List (Text × Json))
deriving Inhabited

abbrev Fields := List (Text × Json)

namespace Fields

def get? (name : Text) : Fields → Option Json
  | [] => none
  | (key, value) :: rest => if key = name then some value else get? name rest

def holds (name : Text) (fields : Fields) : Bool := (get? name fields).isSome

def put (name : Text) (value : Json) : Fields → Fields
  | [] => [(name, value)]
  | (key, old) :: rest =>
    if key = name then (key, value) :: rest else (key, old) :: put name value rest

end Fields

namespace Json

def field? (name : Text) : Json → Option Json
  | .object fields => Fields.get? name fields
  | _ => none

def truthy : Json → Bool
  | .null => false
  | .bool b => b
  | .int n => n ≠ 0
  | .float x => !(x == 0.0)
  | .text t => !t.isEmpty
  | .array items => !items.isEmpty
  | .object fields => !fields.isEmpty

def isNull : Json → Bool
  | .null => true
  | _ => false

def texts (l : List Text) : Json := .array (l.map .text)

mutual
/-- The spelling of a value inside another one: texts are quoted. -/
def spelled : Json → Text
  | .null => "None"
  | .bool true => "True"
  | .bool false => "False"
  | .int n => Text.signedDecimal n
  | .float x => numeral x
  | .text t => t.quoted
  | .array items => '[' :: List.intercalate ", ".toList (itemsSpelled items) ++ [']']
  | .object fields => '\x7b' :: List.intercalate ", ".toList (fieldsSpelled fields) ++ ['\x7d']
def itemsSpelled : List Json → List Text
  | [] => []
  | item :: rest => spelled item :: itemsSpelled rest
def fieldsSpelled : List (Text × Json) → List Text
  | [] => []
  | (name, value) :: rest => (name.quoted ++ ": " ++ spelled value) :: fieldsSpelled rest
end

def shown : Json → Text
  | .text t => t
  | value => spelled value

end Json
end SoundLaw
