import SoundLaw.Rule.Context

/-!
The pattern of a rule in three parts: what has to stand before the target, the target, and what
has to stand after it.
-/
namespace SoundLaw
open Regex

def behindText (before : Text) : Text :=
  if before = boundary then ['^']
  else if before.isEmpty then [] else '(' :: '?' :: '<' :: '=' :: (before ++ [')'])

def aheadText (after : Text) : Text :=
  if after = boundary then ['\\', 'Z']
  else if after.isEmpty then [] else '(' :: '?' :: '=' :: (after ++ [')'])

theorem rulePattern_eq (target before after : Text) :
    rulePattern target before after =
      behindText before ++ (escapeText target ++ aheadText after) := by
  unfold rulePattern behindText aheadText
  by_cases hb : before = boundary <;> by_cases ha : after = boundary
  · simp [hb, ha]
  · by_cases empty : after.isEmpty = true <;> simp [hb, ha, empty]
  · by_cases empty : before.isEmpty = true <;> simp [hb, ha, empty]
  · by_cases first : before.isEmpty = true <;> by_cases last : after.isEmpty = true <;>
      simp [hb, ha, first, last]

end SoundLaw
