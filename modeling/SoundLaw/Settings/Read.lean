import SoundLaw.Settings.Variables
import SoundLaw.Schema.Check

/-!
Settings of the program, read from the variables of its environment and of a file. A variable of
the environment counts before one of the file, and case in a name does not count.
-/
namespace SoundLaw
open Checked

structure Settings where
  /-- The greatest distance of a search that names none. -/
  threshold : Float := 0.6
  /-- The name of the file that holds the rules of a language. -/
  rulesFile : Text := "sca_rules.json"
  debug : Bool := false
  logLevel : Text := "INFO"

namespace Settings

def leader : Text := "soundshift_"

def truthOfText? (t : Text) : Option Bool :=
  let yes : List Text := ["1", "on", "t", "true", "y", "yes"]
  let no : List Text := ["0", "off", "f", "false", "n", "no"]
  if t.lowerAscii ∈ yes then some true
  else if t.lowerAscii ∈ no then some false
  else none

def checkTruth (t : Text) : Checked Bool :=
  match truthOfText? t with
  | some b => pure b
  | none => fail .unreadableTruth

def text? (environment : Variables) (file : List (Text × Option Text)) (name : Text) :
    Option Text :=
  (Variables.last? Text.lowerAscii (leader ++ name) environment).or
    (Variables.last? Text.lowerAscii (leader ++ name) file).join

/-- Settings from the variables of the environment and of a file. -/
def read (environment : Variables) (file : List (Text × Option Text)) : Checked Settings :=
  let setting {α : Type} (name : Text) (default : α) (check : Text → Checked α) : Checked α :=
    match text? environment file name with
    | some t => inside (.field name) (check t)
    | none => pure default
  (fun ((threshold, rulesFile), debug, logLevel) => ⟨threshold, rulesFile, debug, logLevel⟩) <$>
    both
      (both (setting "fuzzy_threshold" 0.6 fun t => Json.checkUnitReal (.text t))
        (setting "rules_filename" "sca_rules.json".toList pure))
      (both (setting "debug" false checkTruth) (setting "log_level" "INFO".toList pure))

end Settings
end SoundLaw
