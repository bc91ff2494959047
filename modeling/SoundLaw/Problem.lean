import SoundLaw.Json.Basic

/-!
Problems that the library reports to its callers: what went wrong, with the words and the details
that go with it.
-/
namespace SoundLaw

inductive ProblemCode where
  | invalidInput | invalidRule | invalidFeatureExpression
  | fileNotFound
  | malformedPattern | transformationFailed
deriving DecidableEq

namespace ProblemCode

def all : List ProblemCode :=
  [.invalidInput, .invalidRule, .invalidFeatureExpression, .fileNotFound, .malformedPattern,
   .transformationFailed]

def text : ProblemCode → Text
  | .invalidInput => "invalid_input"
  | .invalidRule => "invalid_rule"
  | .invalidFeatureExpression => "invalid_feature_expression"
  | .fileNotFound => "file_not_found"
  | .malformedPattern => "malformed_pattern"
  | .transformationFailed => "transformation_failed"

def ofText? (t : Text) : Option ProblemCode := all.find? fun code => code.text = t

end ProblemCode

inductive Problem where
  | general (code : ProblemCode) (message : Text) (field : Option Text) (context : Fields)
  | invalid (message : Text) (code : ProblemCode) (field : Option Text) (context : Fields)
  | invalidRule (rule reason : Text)
  | invalidExpression (expression : Text) (reason : Option Text)
  | missing (resource identifier : Text) (code : ProblemCode)
  | failed (operation reason : Text) (code : ProblemCode) (field : Option Text) (context : Fields)
  | malformedPattern (pattern rule reason : Text)

namespace Problem

def compilation (rule : Text) : Text := "Pattern compilation for rule '" ++ rule ++ "'"

def message : Problem → Text
  | .general _ message _ _ => message
  | .invalid message _ _ _ => message
  | .invalidRule rule reason => "Invalid rule " ++ rule.quoted ++ ": " ++ reason
  | .invalidExpression expression reason =>
    "Invalid feature expression: " ++ expression ++
      match reason with
      | some (c :: rest) => " (" ++ (c :: rest) ++ ")"
      | _ => []
  | .missing resource identifier _ => resource ++ " not found: " ++ identifier
  | .failed operation reason _ _ _ => operation ++ " failed: " ++ reason
  | .malformedPattern _ rule reason => compilation rule ++ " failed: " ++ reason

def code : Problem → ProblemCode
  | .general code _ _ _ => code
  | .invalid _ code _ _ => code
  | .invalidRule _ _ => .invalidRule
  | .invalidExpression _ _ => .invalidFeatureExpression
  | .missing _ _ code => code
  | .failed _ _ code _ _ => code
  | .malformedPattern _ _ _ => .malformedPattern

def field : Problem → Option Text
  | .general _ _ field _ => field
  | .invalid _ _ field _ => field
  | .failed _ _ _ field _ => field
  | .invalidRule _ _ => some "rule"
  | .invalidExpression _ _ => some "expression"
  | _ => none

def context : Problem → Fields
  | .general _ _ _ context => context
  | .invalid _ _ _ context => context
  | .invalidRule rule reason => [("rule_id", .text rule), ("reason", .text reason)]
  | .invalidExpression expression reason =>
    [("expression", .text expression), ("reason", (reason.map Json.text).getD .null)]
  | .missing resource identifier _ =>
    [("resource_type", .text resource), ("identifier", .text identifier)]
  | .failed operation reason _ _ context =>
    ("operation", .text operation) :: ("reason", .text reason) :: context
  | .malformedPattern pattern rule reason =>
    [("operation", .text (compilation rule)), ("reason", .text reason), ("pattern", .text pattern),
     ("rule_id", .text rule)]

end Problem
end SoundLaw
