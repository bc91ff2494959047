import SoundLaw.Store.Path
import SoundLaw.Sorting

/-!
Stores: directories and files below a root. Every operation that can go wrong says how, and
leaves the store as far as it got. A disk may refuse more than its store tells.
-/
namespace SoundLaw

inductive Content where
  | text (t : Text)
  | binary (bytes : List UInt8)
deriving DecidableEq

inductive Entry where
  | directory
  | file (content : Content)
deriving DecidableEq

/-- The entries below the root, each with its place. -/
structure Store where
  entries : List (Path × Entry) := []
deriving DecidableEq

inductive FileFault where
  | absent | occupied | isDirectory | notDirectory
deriving DecidableEq

def FileFault.message : FileFault → Text
  | .absent => "No such file or directory"
  | .occupied => "File exists"
  | .isDirectory => "Is a directory"
  | .notDirectory => "Not a directory"

/-- What a disk refuses though nothing in its store stands against it, as for want of room or of a
right, with what is reported then. It lets a file go that was just made on it. -/
structure Disk (ε : Type) where
  make : Path → Option ε
  create : Path → Option ε
  /-- Breaks off the writing of a file, with what it holds by then. -/
  fill : Path → Option (Content × ε)
  move : Path → Path → Option ε

/-- The disk that refuses nothing. -/
def Disk.sound {ε : Type} : Disk ε :=
  ⟨fun _ => none, fun _ => none, fun _ => none, fun _ _ => none⟩

namespace Store

def find? (place : Path) : List (Path × Entry) → Option Entry
  | [] => none
  | (p, entry) :: rest => if p = place then some entry else find? place rest

def entryAt? (s : Store) (place : Path) : Option Entry :=
  if place.isEmpty then some .directory else find? place s.entries

def setEntry (place : Path) (entry : Entry) : List (Path × Entry) → List (Path × Entry)
  | [] => [(place, entry)]
  | (p, old) :: rest =>
    if p = place then (p, entry) :: rest else (p, old) :: setEntry place entry rest

def put (s : Store) (place : Path) (entry : Entry) : Store := ⟨setEntry place entry s.entries⟩

def drop (s : Store) (place : Path) : Store := ⟨s.entries.filter fun e => e.1 ≠ place⟩

def next (place : Path) (name : Text) : Path :=
  if name = Path.up then place.dropLast else place ++ [name]

/-- The place that names lead to; all places on the way are directories. -/
def walk (s : Store) : Path → Path → Except FileFault Path
  | place, [] => .ok place
  | place, name :: rest =>
    match s.entryAt? place with
    | some .directory => walk s (next place name) rest
    | some (.file _) => .error .notDirectory
    | none => .error .absent

def look (s : Store) (path : Path) : Except FileFault Entry := do
  let place ← s.walk [] path
  match s.entryAt? place with
  | some entry => return entry
  | none => .error .absent

def holds (s : Store) (path : Path) : Bool := (s.look path).toOption.isSome

def read (s : Store) (path : Path) : Except FileFault Content := do
  match ← s.look path with
  | .file content => return content
  | .directory => .error .isDirectory

/-- Makes a directory of every name that leads to nothing; `made` tells whether one was made. -/
def makeFrom {ε : Type} (fault : FileFault → ε) (disk : Disk ε) :
    Bool → Store → Path → Path → Store × Except ε Unit
  | _, s, _, [] => (s, .ok ())
  | made, s, place, name :: rest =>
    match s.entryAt? (next place name) with
    | some .directory => makeFrom fault disk made s (next place name) rest
    | some (.file _) =>
      (s, .error (fault (if rest.isEmpty || made then .occupied else .notDirectory)))
    | none =>
      match disk.make (next place name) with
      | some e => (s, .error e)
      | none => makeFrom fault disk true (s.put (next place name) .directory) (next place name) rest

def makeDirectories (s : Store) (path : Path) : Store × Except FileFault Unit :=
  makeFrom id .sound false s [] path

def target (s : Store) (path : Path) : Except FileFault Path := do
  let place ← s.walk [] path
  match s.entryAt? place with
  | some .directory => .error .isDirectory
  | _ => return place

def write (s : Store) (path : Path) (content : Content) : Except FileFault Store := do
  return s.put (← s.target path) (.file content)

/-- Moves the file at a place to the end of a path, over the file that is there. -/
def move (s : Store) (place path : Path) (content : Content) : Except FileFault Store := do
  return (s.drop place).put (← s.target path) (.file content)

def below (s : Store) (place : Path) : List Path :=
  s.entries.filterMap fun e =>
    if place.isPrefixOf e.1 && e.1 ≠ place then some (e.1.drop place.length) else none

/-- A name that no entry has: it is longer than every name there is. -/
def unusedName (s : Store) (start finish : Text) : Text :=
  let lengths := s.entries.map fun e => (e.1.map List.length).foldl max 0
  start ++ List.replicate (lengths.foldl max 0 + 1) 'x' ++ finish

end Store
end SoundLaw
