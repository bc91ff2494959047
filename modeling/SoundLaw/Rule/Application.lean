import SoundLaw.Phonology.Token
import SoundLaw.Rule.Context
import SoundLaw.Phonology.Model
import SoundLaw.Regex.Reader
import SoundLaw.Regex.Matcher
import SoundLaw.Journal

/-!
One rule applied to one word. A character rule replaces its targets pair by pair; a feature rule
changes all tokens at once, each in the context of the tokens as they were.
-/
namespace SoundLaw

structure Outcome where
  result : Text
  changed : Bool
  details : List Text := []
  warnings : List Text := []
deriving DecidableEq

/-- A pattern whose flags exclude one another ends a run. -/
inductive RunFault where
  | conflictingFlags (c : Regex.FlagConflict)
deriving DecidableEq

abbrev Applied := Journal RunFault

def hasException (word : Text) (exceptions : List Text) : Bool :=
  exceptions.any fun e => !e.isEmpty && e.occurs word

namespace CharacterRule

/-- Targets with their replacements; a missing replacement repeats the last one. -/
def pairUp (last : Text) : List Text → List Text → List (Text × Text)
  | [], _ => []
  | target :: targets, [] => (target, last) :: pairUp last targets []
  | target :: targets, new :: replacements => (target, new) :: pairUp new targets replacements

def pairs (r : CharacterRule) : List (Text × Text) := pairUp [] r.target.words r.replacement.words

def applyPair (r : CharacterRule) (before after : Text) (o : Outcome) (pair : Text × Text) :
    Applied Outcome :=
  if hasException o.result r.exceptions then pure o
  else
    let pattern := rulePattern pair.1 before after
    match Regex.compile pattern with
    | .error (.conflictingFlags c) => Journal.raise (.conflictingFlags c)
    | .error (.syntaxFault f) =>
      let reason := f.message pattern
      let problem := Problem.malformedPattern pattern r.id reason
      ⟨[.patternRefused r.id pattern reason],
        .ok { o with warnings := o.warnings ++ [problem.message] }⟩
    | .ok p =>
      let new := Regex.replaceAll p pair.2 o.result
      pure (if new = o.result then o else { o with result := new, changed := true })

def applyPairs (r : CharacterRule) (before after : Text) :
    List (Text × Text) → Outcome → Applied Outcome
  | [], o => pure o
  | pair :: rest, o => do
    let o ← applyPair r before after o pair
    applyPairs r before after rest o

def apply (r : CharacterRule) (macros : Macros) (word : Text) : Applied Outcome :=
  applyPairs r (expandContext macros r.before) (expandContext macros r.after) r.pairs
    ⟨word, false, [], []⟩

end CharacterRule

namespace FeatureRule

/-- Whether a neighbour, if there is one, answers to a context; an absent or empty context asks
for none. -/
def contextHolds (m : Model) (context : Option Expression) (neighbour : Option Text) : Bool :=
  match context with
  | none => true
  | some e => e.isEmpty || neighbour.any (m.describes e)

def shift (r : FeatureRule) (m : Model) (target : Expression) (replacement : Replacement)
    (previous : Option Text) (token : Text) (following : Option Text) : Text :=
  if m.describes target token && contextHolds m r.before previous &&
      contextHolds m r.after following then m.replace replacement token
  else token

/-- Shifts all tokens, each between the tokens as they were. -/
def shiftFrom (r : FeatureRule) (m : Model) (target : Expression) (replacement : Replacement) :
    Option Text → List Text → List Text
  | _, [] => []
  | previous, token :: rest =>
    shift r m target replacement previous token rest.head? ::
      shiftFrom r m target replacement (some token) rest

def changes (replacement : Replacement) : List Text → List Text → List Text
  | old :: olds, new :: news =>
    if old = new then changes replacement olds news
    else (old ++ "→" ++ new ++ " [" ++ replacement.summary ++ "]") :: changes replacement olds news
  | _, _ => []

/-- Applies the rule to a word cut with the inventory, or with all phonemes of the model where the
inventory is empty. -/
def apply (r : FeatureRule) (m : Model) (inventory : List Text) (word : Text) : Outcome :=
  match r.target, r.replacement with
  | some target, some replacement =>
    let tokens := tokenize (if inventory.isEmpty then m.phonemes else inventory) word
    let new :=
      if hasException word r.exceptions then tokens
      else shiftFrom r m target replacement none tokens
    let details := changes replacement tokens new
    ⟨spell new, !details.isEmpty, details, []⟩
  | _, _ => ⟨word, false, [], []⟩

end FeatureRule

def Rule.apply (m : Model) (macros : Macros) (inventory : List Text) (word : Text) :
    Rule → Applied Outcome
  | .character rule => rule.apply macros word
  | .feature rule => pure (rule.apply m inventory word)

end SoundLaw
