import SoundLaw.Text.Quoted

/-!
What commands accept: operands by position, options by name.
-/
namespace SoundLaw

inductive ValueKind where
  /-- A file that there is. -/
  | file
  /-- A number from zero to one. -/
  | share
deriving DecidableEq

structure OptionRule where
  long : Text
  short : Option Char := none
  value : Option ValueKind := none
  required : Bool := false
  about : Text
deriving DecidableEq

/-- An operand; only the last one of a command may take many words. -/
structure OperandRule where
  name : Text
  many : Bool := false
deriving DecidableEq

def OperandRule.shown (o : OperandRule) : Text := if o.many then o.name ++ "..." else o.name

structure CommandRule where
  /-- The words that call the command. -/
  call : Text
  about : Text
  operands : List OperandRule := []
  options : List OptionRule := []

def helpOption : OptionRule := ⟨"--help", none, none, false, "Show this message and exit."⟩

namespace CommandRule

def allOptions (c : CommandRule) : List OptionRule := c.options ++ [helpOption]

def long? (c : CommandRule) (name : Text) : Option OptionRule :=
  c.allOptions.find? fun o => o.long = name

def short? (c : CommandRule) (letter : Char) : Option OptionRule :=
  c.allOptions.find? fun o => o.short = some letter

def usage (c : CommandRule) : Text :=
  "Usage: " ++ c.call ++ " [OPTIONS]" ++ (c.operands.flatMap fun o => ' ' :: o.shown) ++ ['\n']

end CommandRule

inductive Complaint where
  | unknownOption (name : Text) (alike : List Text)
  | unknownCommand (name : Text) (alike : List Text)
  | noCommand
  | noValue (option : Text)
  | needlessValue (option : Text)
  | missingOperand (name : Text)
  | missingOption (name : Text)
  | badValue (option reason : Text)
  | surplus (words : List Text)
deriving DecidableEq

namespace Complaint

def hint : List Text → Text
  | [] => []
  | [name] => " Did you mean " ++ name.quoted ++ "?"
  | names => " (Possible options: " ++ List.intercalate ", ".toList (names.map Text.quoted) ++ ")"

def message : Complaint → Text
  | .unknownOption name alike => "No such option " ++ name.quoted ++ "." ++ hint alike
  | .unknownCommand name alike => "No such command " ++ name.quoted ++ "." ++ hint alike
  | .noCommand => "Missing command."
  | .noValue option => "Option " ++ option.quoted ++ " requires an argument."
  | .needlessValue option => "Option " ++ option.quoted ++ " does not take a value."
  | .missingOperand name => "Missing argument '" ++ name ++ "'."
  | .missingOption name => "Missing option '" ++ name ++ "'."
  | .badValue option reason => "Invalid value for '" ++ option ++ "': " ++ reason
  | .surplus words =>
    "Got unexpected extra argument" ++ (if words.length = 1 then [] else ['s']) ++ " (" ++
      List.intercalate [' '] words ++ ")"

end Complaint
end SoundLaw
