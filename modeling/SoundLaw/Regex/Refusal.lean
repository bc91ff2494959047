import SoundLaw.Text.Digits

/-!
Why a text is no regular expression, and where that shows.
-/
namespace SoundLaw.Regex

inductive Reason where
  | missing (c : Char)
  | unbalanced
  | nothingToRepeat | multipleRepeat | repeatTooBig | leastAboveMost
  | unterminatedClass | badRange
  | unknownProperty | unknownPropertyValue
  | unknownExtension
  | missingGroupName | badGroupName
  | unknownGroup | invalidGroup | openGroup
  | noFlagsOff | globalFlagOff | flagOnAndOff
  | patternEnd
  | badEscape (escape : Text)
  | incompleteEscape (escape : Text)
  | badHexEscape (escape : Text)
  | unknownName
  | tooDeep
deriving DecidableEq

def Reason.message : Reason → Text
  | .missing c => "missing " ++ [c]
  | .unbalanced => "unbalanced parenthesis"
  | .nothingToRepeat => "nothing to repeat"
  | .multipleRepeat => "multiple repeat"
  | .repeatTooBig => "repeat count too big"
  | .leastAboveMost => "min repeat greater than max repeat"
  | .unterminatedClass => "unterminated character set"
  | .badRange => "bad character range"
  | .unknownProperty => "unknown property"
  | .unknownPropertyValue => "unknown property value"
  | .unknownExtension => "unknown extension"
  | .missingGroupName => "missing group name"
  | .badGroupName => "bad character in group name"
  | .unknownGroup => "unknown group"
  | .invalidGroup => "invalid group reference"
  | .openGroup => "cannot refer to an open group"
  | .noFlagsOff => "bad inline flags: no flags after '-'"
  | .globalFlagOff => "bad inline flags: cannot turn off global flag"
  | .flagOnAndOff => "bad inline flags: flag turned on and off"
  | .patternEnd => "bad escape (end of pattern)"
  | .badEscape escape => "bad escape \\" ++ escape
  | .incompleteEscape escape => "incomplete escape \\" ++ escape
  | .badHexEscape escape => "bad hex escape \\" ++ escape
  | .unknownName => "undefined character name"
  | .tooDeep => "pattern too deep"

structure SyntaxFault where
  reason : Reason
  position : Nat
deriving DecidableEq

namespace SyntaxFault

def lineAndColumn (t : Text) (position : Nat) : Nat × Nat :=
  let before := (t.take position).reverse
  (before.count '\n' + 1, (before.takeWhile (· ≠ '\n')).length + 1)

def message (pattern : Text) (f : SyntaxFault) : Text :=
  let place : Text :=
    if pattern.contains '\n' then
      let (line, column) := lineAndColumn pattern f.position
      " (line " ++ Text.decimal line ++ ", column " ++ Text.decimal column ++ ")"
    else []
  f.reason.message ++ " at position " ++ Text.decimal f.position ++ place

end SyntaxFault

/-- The flags that exclude one another: the versions, and the kinds of characters. -/
inductive FlagConflict where
  | versions
  | characters
deriving DecidableEq

def FlagConflict.message : FlagConflict → Text
  | .versions => "VERSION0 and VERSION1 flags are mutually incompatible"
  | .characters => "ASCII, LOCALE and UNICODE flags are mutually incompatible"

inductive Refused where
  | syntaxFault (f : SyntaxFault)
  | conflictingFlags (c : FlagConflict)
deriving DecidableEq

end SoundLaw.Regex
