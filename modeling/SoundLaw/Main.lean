import SoundLaw.Command.Program
import SoundLaw.Json.Writer

/-!
The command line.
-/
open SoundLaw

def variableNames : List String :=
  ["FUZZY_THRESHOLD", "RULES_FILENAME", "DEBUG", "LOG_LEVEL"].flatMap fun name =>
    ["SOUNDSHIFT_" ++ name, ("SOUNDSHIFT_" ++ name).toLower]

def readVariables : IO Variables := do
  let values ← variableNames.mapM fun name => do
    return (← IO.getEnv name).map fun value => (name.toList, value.toList)
  return values.filterMap id

def readEntry (path : String) : IO (Option Entry) := do
  try
    let bytes ← IO.FS.readBinFile path
    match String.fromUTF8? bytes with
    | some s => return some (.file (.text s.toList))
    | none => return some (.file (.binary bytes.toList))
  catch
    | .noFileOrDirectory .. => return none
    | .inappropriateType .. => return some .directory
    | _ => return none

def addPath (store : Store) (text : String) : IO Store := do
  match ← readEntry text with
  | none => return store
  | some entry =>
    let path := Path.ofText text.toList
    let (store, _) := store.makeDirectories path.dropLast
    match store.walk [] path with
    | .ok [] | .error _ => return store
    | .ok place => return store.put place entry

/-- A store of all that the words of a call can name. -/
def readStore (words : List String) : IO Store :=
  let values := words.map fun word => String.ofList ((word.toList.dropWhile (· ≠ '=')).drop 1)
  (".env" :: words ++ values).foldlM addPath {}

def main (words : List String) : IO UInt32 := do
  let session : Session := { environment := ← readVariables, store := ← readStore words }
  let report := Program.run session (words.map String.toList)
  for record in report.records do
    if Fields.get? "level" record |>.any fun level => level.shown ≠ "debug".toList then
      IO.eprintln (String.ofList (Json.object record).inline)
  if report.exit = 0 then IO.print (String.ofList report.output)
  else IO.eprint (String.ofList report.output)
  return UInt32.ofNat report.exit
