import SoundLaw.Rule.Basic

/-!
Issues: what a checked value gets wrong, and where.
-/
namespace SoundLaw

/-- One step from a value into its parts. -/
inductive Place where
  | field (name : Text)
  | item (index : Nat)
deriving DecidableEq

inductive Fault where
  | missing
  | notText | notList | notObject
  | notRecord (name : Text)
  | notFields
  | unexpected
  | notMode (expected : Mode)
  | unknownMode (found : Text)
  | notWhole | unreadableWhole | fractional | notFinite | tooGreat
  | notReal | unreadableReal
  | unreadableTruth
  | belowZero | aboveOne
  | contradiction (features : List Text)
deriving DecidableEq

namespace Fault

def kind : Fault → Text
  | .missing => "missing"
  | .notText => "string_type"
  | .notList => "list_type"
  | .notObject => "dict_type"
  | .notRecord _ => "model_type"
  | .notFields => "model_attributes_type"
  | .unexpected => "extra_forbidden"
  | .notMode _ => "literal_error"
  | .unknownMode _ => "union_tag_invalid"
  | .notWhole => "int_type"
  | .unreadableWhole => "int_parsing"
  | .fractional => "int_from_float"
  | .notFinite => "finite_number"
  | .tooGreat => "int_parsing_size"
  | .notReal => "float_type"
  | .unreadableReal => "float_parsing"
  | .unreadableTruth => "bool_parsing"
  | .belowZero => "greater_than_equal"
  | .aboveOne => "less_than_equal"
  | .contradiction _ => "value_error"

def message : Fault → Text
  | .missing => "Field required"
  | .notText => "Input should be a valid string"
  | .notList => "Input should be a valid list"
  | .notObject => "Input should be a valid dictionary"
  | .notRecord name => "Input should be a valid dictionary or instance of " ++ name
  | .notFields => "Input should be a valid dictionary or object to extract fields from"
  | .unexpected => "Extra inputs are not permitted"
  | .notMode expected => "Input should be " ++ expected.text.quoted
  | .unknownMode found =>
    "Input tag '" ++ found ++ "' found using 'mode' does not match any of the expected tags: " ++
      "'character', 'feature'"
  | .notWhole => "Input should be a valid integer"
  | .unreadableWhole => "Input should be a valid integer, unable to parse string as an integer"
  | .fractional => "Input should be a valid integer, got a number with a fractional part"
  | .notFinite => "Input should be a finite number"
  | .tooGreat => "Unable to parse input string as an integer, exceeded maximum size"
  | .notReal => "Input should be a valid number"
  | .unreadableReal => "Input should be a valid number, unable to parse string as a number"
  | .unreadableTruth => "Input should be a valid boolean, unable to interpret input"
  | .belowZero => "Input should be greater than or equal to 0"
  | .aboveOne => "Input should be less than or equal to 1"
  | .contradiction features =>
    "Value error, features both required and excluded: " ++ Text.quotedList features

end Fault

structure Issue where
  path : List Place
  fault : Fault
deriving DecidableEq

def Issue.inside (place : Place) (issue : Issue) : Issue := ⟨place :: issue.path, issue.fault⟩

/-- Why a value is refused: it has issues, or a problem that stops the check at once. -/
inductive Refusal where
  | issues (l : List Issue)
  | problem (p : Problem)

def Refusal.inside (place : Place) : Refusal → Refusal
  | .issues l => .issues (l.map (Issue.inside place))
  | .problem p => .problem p

end SoundLaw
