import SoundLaw.Store.Documents
import SoundLaw.Settings.File
import SoundLaw.Settings.Read

/-!
Sessions: a store in an environment. Settings are read when they are first needed, and stay.
-/
namespace SoundLaw

structure Session where
  environment : Variables := []
  store : Store := {}
  settings : Option Settings := none

namespace Session

def variableFile : Path := [".env".toList]

def fileVariables (s : Session) : Except StoreFault (List (Text × Option Text)) :=
  match s.store.look variableFile with
  | .ok (.file (.text t)) => .ok (VariableFile.read s.environment t)
  | .ok (.file (.binary _)) => .error .settingsNoText
  | _ => .ok []

/-- The settings that are in force or would be read now. -/
def currentSettings (s : Session) : Except StoreFault Settings := do
  match s.settings with
  | some settings => return settings
  | none =>
    match (Settings.read s.environment (← s.fileVariables)).outcome with
    | .ok settings => return settings
    | .error (.issues l) => .error (.settings l)
    | .error (.problem p) => .error (.problem p)

def settled (s : Session) : Session := { s with settings := s.currentSettings.toOption }

def threshold (s : Session) : Option Threshold → Except StoreFault Threshold
  | some t => .ok t
  | none => s.currentSettings.map fun settings => .real settings.threshold

def loadConfig (s : Session) (project language : Path) : Session × Stored Config :=
  match s.currentSettings with
  | .error fault => (s, Journal.raise fault)
  | .ok settings => (s.settled, s.store.loadConfig settings.rulesFile project language)

/-- Saves the configuration of a language. The directory is made before the settings are used. -/
def saveConfig (s : Session) (project language : Path) (c : Config) : Session × Stored Path :=
  match s.store.makeDirectories (Path.join project language) with
  | (store, .error f) => ({ s with store := store }, Journal.raise (.file f))
  | (store, .ok ()) =>
    match s.currentSettings with
    | .error fault => ({ s with store := store }, Journal.raise fault)
    | .ok settings =>
      let (store, saved) := store.saveConfig settings.rulesFile project language c
      ({ s.settled with store := store }, saved)

end Session
end SoundLaw
