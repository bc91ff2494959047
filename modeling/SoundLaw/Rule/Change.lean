import SoundLaw.Rule.Basic

/-!
What a run of rules did to a word: the final word, the rules that changed it, and warnings.
-/
namespace SoundLaw

structure Step where
  rule : Text
  description : Text
  before : Text
  after : Text
  detail : Option Text := none
deriving DecidableEq

/-- A word after a run, with every rule that changed it. -/
structure Change where
  result : Text
  steps : List Step := []
  warnings : List Text := []
deriving DecidableEq

structure BatchItem where
  word : Text
  result : Text
  steps : List Step := []
deriving DecidableEq

def BatchItem.changed (item : BatchItem) : Bool := !item.steps.isEmpty

end SoundLaw
