import SoundLaw.Store.Basic
import SoundLaw.Json.Reader
import SoundLaw.Json.Writer
import SoundLaw.Rule.Schema
import SoundLaw.Rule.Document
import SoundLaw.Similarity.Schema
import SoundLaw.Schema.Report

/-!
Documents in a store: configurations, lexicons and inventories. A configuration is written to a
file of its own first, which then takes the place of the old one.
-/
namespace SoundLaw

inductive StoreFault where
  | problem (p : Problem)
  | file (f : FileFault)
  /-- A number that no document can hold. -/
  | unwritable
  /-- Settings that are needed have issues. -/
  | settings (l : List Issue)
  /-- The file of settings is no text. -/
  | settingsNoText

abbrev Stored := Journal StoreFault

namespace Resource

def config : Text := "SCA config"

def lexicon : Text := "Lexicon"

def inventory : Text := "Phoneme inventory"

end Resource

def faulty (path : Path) (message : Text) (context : Fields) : StoreFault :=
  .problem (.invalid message .invalidInput (some (Path.text path)) context)

namespace Store

def readJson (s : Store) (resource : Text) (path : Path) : Except StoreFault Json :=
  match s.look path with
  | .error _ => .error (.problem (.missing resource (Path.text path) .fileNotFound))
  | .ok .directory => .error (.file .isDirectory)
  | .ok (.file content) =>
    let value? : Option Json := match content with
      | .text t => Json.read? .document t
      | .binary _ => none
    match value? with
    | some value => .ok value
    | none => .error (faulty path (resource ++ " is not valid JSON") [])

end Store

def checked {α : Type} (resource : Text) (path : Path) (c : Checked α) : Stored α :=
  c.mapError fun
    | .problem p => .problem p
    | .issues l =>
      faulty path (resource ++ " failed validation: " ++ Text.decimal l.length ++ " error(s)")
        [("errors", Issue.report l)]

namespace Store

def readConfig (s : Store) (path : Path) : Stored Config := do
  let value ← Journal.ofExcept (s.readJson Resource.config path)
  let config ← checked Resource.config path (Config.check value)
  Journal.tell (.loaded (Path.text path) config.ruleSets.length (config.ruleSets.flatMap RuleSet.rules).length)
  return config

def configPath (rulesFile : Text) (project language : Path) : Path :=
  Path.join (Path.join project language) (Path.ofText rulesFile)

/-- Reads the configuration of a language; one that was never saved is empty. -/
def loadConfig (rulesFile : Text) (s : Store) (project language : Path) : Stored Config :=
  let path := configPath rulesFile project language
  if s.holds path then s.readConfig path else pure {}

/-- The text of a configuration, unless one of its numbers has more than 64 bits. -/
def configText? (c : Config) : Option Text :=
  if c.ruleSets.all fun set => Json.fitsWord set.order then some (Json.indented 0 c.json) else none

/-- Writes a text to a file with a name of its own, and moves that to its path. If it cannot be
written to the end or moved it is taken away again. -/
def replaceFileOn {ε : Type} (fault : FileFault → ε) (disk : Disk ε) (s : Store)
    (directory path : Path) (t : Text) : Store × Except ε Unit :=
  match s.walk [] (directory ++ [s.unusedName ".sca_rules." ".tmp"]) with
  | .error f => (s, .error (fault f))
  | .ok place =>
    match disk.create place with
    | some e => (s, .error e)
    | none =>
      match disk.fill place with
      | some (part, e) => ((s.put place (.file part)).drop place, .error e)
      | none =>
        let written := s.put place (.file (.text t))
        match disk.move place path with
        | some e => (written.drop place, .error e)
        | none =>
          match written.move place path (.text t) with
          | .ok moved => (moved, .ok ())
          | .error f => (written.drop place, .error (fault f))

/-- Saves the configuration of a language on a disk: the directory first, then the text, then the
file. -/
def saveConfigOn {ε : Type} (fault : StoreFault → ε) (disk : Disk ε) (rulesFile : Text) (s : Store)
    (project language : Path) (c : Config) : Store × Journal ε Path :=
  let directory := Path.join project language
  let path := configPath rulesFile project language
  match makeFrom (fun f => fault (.file f)) disk false s [] directory with
  | (s, .error e) => (s, Journal.raise e)
  | (s, .ok ()) =>
    match configText? c with
    | none => (s, Journal.raise (fault .unwritable))
    | some t =>
      match s.replaceFileOn (fun f => fault (.file f)) disk directory path t with
      | (s, .error e) => (s, Journal.raise e)
      | (s, .ok ()) => (s, ⟨[.saved (Path.text path) c.ruleSets.length], .ok path⟩)

def saveConfig (rulesFile : Text) (s : Store) (project language : Path) (c : Config) :
    Store × Stored Path :=
  saveConfigOn id .sound rulesFile s project language c

def checkEntries : List Json → Checked (List LexiconEntry)
  | [] => pure []
  | item :: rest => do
    let entry ← LexiconEntry.check item
    let entries ← checkEntries rest
    return entry :: entries

def loadLexicon (s : Store) (path : Path) : Stored (List LexiconEntry) := do
  match ← Journal.ofExcept (s.readJson Resource.lexicon path) with
  | .array items => checked Resource.lexicon path (checkEntries items)
  | _ => Journal.raise (faulty path (Resource.lexicon ++ " must be a JSON array of entries") [])

def loadInventory (s : Store) (path : Path) : Stored Inventory := do
  let value ← Journal.ofExcept (s.readJson Resource.inventory path)
  checked Resource.inventory path (Inventory.check value)

end Store
end SoundLaw
