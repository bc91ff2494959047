import SoundLaw.Rule.Application
import SoundLaw.Rule.Change
import SoundLaw.Timing

/-!
Runs: rule sets applied to a word by ascending order, each rule to the result of those before it.
A rule that changes nothing leaves no trace among the steps.
-/
namespace SoundLaw

/-- What a run needs besides the word and the rules. -/
structure Setting where
  model : Model
  macros : Macros
  inventory : List Text

def joinDetails (details : List Text) : Option Text :=
  if details.isEmpty then none else some (List.intercalate "; ".toList details)

namespace Change

def add (c : Change) (rule : Rule) (o : Outcome) : Change :=
  let warned := { c with warnings := c.warnings ++ o.warnings }
  if o.changed then
    { warned with
      result := o.result
      steps := c.steps ++ [⟨rule.id, rule.describe, c.result, o.result, joinDetails o.details⟩] }
  else warned

/-- Applies one rule of a set and tells of it if it changed the word. -/
def applyRule (s : Setting) (ruleSet : Text) (c : Change) (rule : Rule) : Applied Change := do
  let o ← rule.apply s.model s.macros s.inventory c.result
  if o.changed then Journal.tell (.ruleApplied rule.id ruleSet c.result o.result)
  return c.add rule o

def applyRules (s : Setting) : List (Text × Rule) → Change → Applied Change
  | [], c => pure c
  | (ruleSet, rule) :: rest, c => do
    let c ← c.applyRule s ruleSet rule
    applyRules s rest c

end Change

def inOrder (sets : List RuleSet) : List RuleSet :=
  sortBy (fun a b => decide (a.order ≤ b.order)) sets

def rulesInOrder (sets : List RuleSet) : List (Text × Rule) :=
  (inOrder sets).flatMap fun set => set.rules.map fun rule => (set.id, rule)

def runWord (s : Setting) (sets : List RuleSet) (word : Text) : Applied Change :=
  Change.applyRules s (rulesInOrder sets) ⟨word, [], []⟩

def runWords (s : Setting) (sets : List RuleSet) : List Text → Applied (List BatchItem)
  | [] => pure []
  | word :: rest => do
    let c ← runWord s sets word
    let more ← runWords s sets rest
    return ⟨word, c.result, c.steps⟩ :: more

def RunFault.notice : RunFault → Notice
  | .conflictingFlags c => ⟨c.message, "ValueError"⟩

/-- Puts rule sets in order once, runs them over many words and tells how that ended. -/
def runBatch (s : Setting) (sets : List RuleSet) (words : List Text) : Applied (List BatchItem) :=
  timed .soundChange "batch_apply_sound_changes" RunFault.notice (runWords s (inOrder sets) words)

end SoundLaw
