import SoundLaw.Command.Script
import SoundLaw.Command.Values
import SoundLaw.Command.Help
import SoundLaw.Command.Table
import SoundLaw.Store.Session
import SoundLaw.Rule.Run
import SoundLaw.Phonology.Index
import SoundLaw.Phonology.Symbols
import SoundLaw.Similarity.Search

/-!
The program: its commands and what they do.
-/
namespace SoundLaw.Program

/-! ### Grammar -/

def inventoryOption : OptionRule :=
  ⟨"--inventory", none, some .file, false, "Phoneme inventory JSON file"⟩

def rulesOption : OptionRule := ⟨"--rules", none, some .file, true, "SCA rules JSON file"⟩

def verboseOption : OptionRule :=
  ⟨"--verbose", some 'v', none, false, "Show the changelog for each word"⟩

def lexiconOption : OptionRule := ⟨"--lexicon", none, some .file, true, "Lexicon JSON file"⟩

def thresholdOption : OptionRule :=
  ⟨"--threshold", none, some .share, false, "Maximum normalized distance"⟩

def applyCommand : CommandRule :=
  { call := "soundshift apply"
    about := "Apply sound-change rule sets to WORDS."
    operands := [⟨"WORDS", true⟩]
    options := [rulesOption, inventoryOption, verboseOption] }

def searchCommand : CommandRule :=
  { call := "soundshift search"
    about := "Find lexicon entries that sound like QUERY."
    operands := [⟨"QUERY", false⟩]
    options := [lexiconOption, inventoryOption, thresholdOption] }

def matchCommand : CommandRule :=
  { call := "soundshift match"
    about := "List phonemes matching EXPRESSION, e.g. \"[+stop, -voiced]\"."
    operands := [⟨"EXPRESSION", false⟩] }

def distanceCommand : CommandRule :=
  { call := "soundshift distance"
    about := "Feature distance between PHONEME_A and PHONEME_B."
    operands := [⟨"PHONEME_A", false⟩, ⟨"PHONEME_B", false⟩] }

def groupCommand : CommandRule :=
  { call := "soundshift"
    about := "SoundShift sound-change and phonetic search CLI"
    operands := [⟨"COMMAND [ARGS]", true⟩] }

def commands : List (Text × CommandRule) :=
  [("apply", applyCommand), ("distance", distanceCommand), ("match", matchCommand), ("search", searchCommand)]

/-! ### Commands -/

/-- Faults of the package end a command with their message, others end it as they are. -/
def storeEnding : StoreFault → Ending
  | .problem p => .failure p.message
  | _ => .fault

def load {α : Type} (work : Stored α) : Script α := Script.perform none storeEnding work

def loadInventory? (store : Store) : Option Path → Script (Option Inventory)
  | none => pure none
  | some path => some <$> load (store.loadInventory path)

def heads : List Text := ["Rule", "Change", "Before", "After", "Detail"]

def row (s : Step) : List Text := [s.rule, s.description, s.before, s.after, s.detail.getD []]

def showChange (verbose : Bool) (word : Text) (c : Change) : Text :=
  Screen.line (word ++ " → " ++ c.result) ++
    (c.warnings.flatMap fun w => Screen.line ("  warning: " ++ w)) ++
    if verbose && !c.steps.isEmpty then Table.draw heads (c.steps.map row) else []

def applyWords (language : Option Text) (setting : Setting) (sets : List RuleSet) (verbose : Bool) :
    List Text → Script Unit
  | [] => pure ()
  | word :: rest => do
    let change ← Script.perform language (fun _ => .fault) (runWord setting sets word)
    Script.say (showChange verbose word change)
    applyWords language setting sets verbose rest

def runApply (s : Session) (rules : Path) (inventory : Option Path) (verbose : Bool)
    (words : List Text) : Script Unit := do
  let config ← load (s.store.readConfig rules)
  let inventory ← loadInventory? s.store inventory
  let setting : Setting := match inventory with
    | some i => ⟨Model.builtIn, i.allMacros, i.phonemes⟩
    | none => ⟨Model.builtIn, [], []⟩
  applyWords (some config.language) setting config.ruleSets verbose words

def showHit (h : Hit Float) : Text :=
  Screen.line (threePlaces h.distance ++ "  " ++ h.entry.id ++ "  " ++ h.entry.romanized ++ "  /" ++
    h.entry.phonetic ++ "/")

def storeNotice : StoreFault → Notice
  | .settings l => ⟨Text.decimal l.length ++ " validation error for Settings", "ValidationError"⟩
  | .problem p => ⟨p.message, "SoundShiftError"⟩
  | _ => ⟨[], "OSError"⟩

def timingEnding : TimingFault StoreFault → Ending
  | .work fault => storeEnding fault
  | .taken _ => .fault

def runSearch (s : Session) (lexicon : Path) (inventory : Option Path) (threshold : Option Float)
    (query : Text) : Script Unit := do
  let entries ← load (s.store.loadLexicon lexicon)
  let inventory ← loadInventory? s.store inventory
  let phonemes := (inventory.map Inventory.phonemes).getD Model.builtIn.phonemes
  let work : Stored (List (Hit Float)) := do
    let t ← Journal.ofExcept (s.threshold (threshold.map .real))
    searchLexicon Model.builtIn phonemes query entries t
  let fields : Fields := [("query", .text query), ("entries", .int entries.length)]
  let found ← Script.perform none timingEnding
    (timer .command "fuzzy_search" fields storeNotice work)
  Script.say (if found.isEmpty then Screen.line "No matches." else found.flatMap showHit)

def runMatch (expression : Text) : Script Unit :=
  match Expression.parse expression with
  | .error p => Script.finish (.failure p.message)
  | .ok e =>
    let phonemes := (FeatureIndex.ofModel Model.builtIn).matching e
    Script.say (Screen.line (if phonemes.isEmpty then "No matching phonemes."
      else List.intercalate [' '] phonemes))

def runDistance (a b : Text) : Script Unit :=
  Script.say (Screen.line (threePlaces (phonemeDistance Model.builtIn a b)))

/-! ### Calls -/

def runValues (s : Session) (name : Text) (v : Values) : Script Unit :=
  match String.ofList name, v.operands with
  | "apply", words =>
    match v.path? rulesOption with
    | some rules =>
      runApply s rules (v.path? inventoryOption) (decide (verboseOption ∈ v.flags)) words
    | none => Script.finish .fault
  | "search", [query] =>
    match v.path? lexiconOption with
    | some lexicon =>
      runSearch s lexicon (v.path? inventoryOption) (v.share? thresholdOption) query
    | none => Script.finish .fault
  | "match", [expression] => runMatch expression
  | "distance", [a, b] => runDistance a b
  | _, _ => Script.finish .fault

def runCommand (s : Session) (name : Text) (rule : CommandRule) (words : List Text) : Script Unit :=
  match rule.readWords true words with
  | .error complaint => Script.finish (.usage rule complaint)
  | .ok arguments =>
    if arguments.has helpOption then Script.finish (.help (rule.help []) 0)
    else match rule.values s.store arguments with
      | .error complaint => Script.finish (.usage rule complaint)
      | .ok values => runValues s name values

/-- A word that is no command: if it looks like an option, it is read as one of the program. -/
def unknownCommand (word : Text) (rest : List Text) : Ending :=
  match groupCommand.readWords false (word :: rest) with
  | .error complaint => .usage groupCommand complaint
  | .ok arguments =>
    if arguments.has helpOption then .help (groupCommand.help commands) 0
    else .usage groupCommand
      (.unknownCommand word (Resemblance.among (commands.map Prod.fst) word))

def script (s : Session) (words : List Text) : Script Unit :=
  if words.isEmpty then Script.finish (.help (groupCommand.help commands) 2)
  else match groupCommand.readWords false words with
    | .error complaint => Script.finish (.usage groupCommand complaint)
    | .ok arguments =>
      if arguments.has helpOption then Script.finish (.help (groupCommand.help commands) 0)
      else match arguments.operands with
        | [] => Script.finish (.usage groupCommand .noCommand)
        | word :: rest =>
          match commands.find? fun entry => entry.1 = word with
          | some (name, rule) => runCommand s name rule rest
          | none => Script.finish (unknownCommand word rest)

def run (s : Session) (words : List Text) : Report := (script s words).report

end SoundLaw.Program
