import SoundLaw.Settings.Variables

/-!
Files of variables: a name and a value on each line, with quotes, comments and references. A line
that cannot be read is passed over.
-/
namespace SoundLaw.VariableFile

structure Binding where
  name : Text
  value : Option Text
deriving DecidableEq

structure Stuck where
  rest : Text

def unifyLines : Text → Text
  | [] => []
  | '\r' :: '\n' :: rest => '\n' :: unifyLines rest
  | '\r' :: rest => '\n' :: unifyLines rest
  | c :: rest => c :: unifyLines rest

def isGap (c : Char) : Bool := isBlank c && c ≠ '\n'

def skipGap (t : Text) : Text := t.dropWhile isGap

def skipExport (t : Text) : Text :=
  let word : Text := "export"
  if word.isPrefixOf t then
    match t.drop word.length with
    | c :: rest => if isGap c then skipGap rest else t
    | [] => t
  else t

/-- Reads up to the quote; a quote behind a backslash counts only if there is no other. -/
def readQuoted (quote : Char) : Text → Option (Text × Text)
  | [] => none
  | '\\' :: c :: rest =>
    if c = quote then
      match readQuoted quote rest with
      | some (t, after) => some ('\\' :: c :: t, after)
      | none => some (['\\'], rest)
    else (readQuoted quote (c :: rest)).map fun (t, after) => ('\\' :: t, after)
  | c :: rest =>
    if c = quote then some ([], rest)
    else (readQuoted quote rest).map fun (t, after) => (c :: t, after)

def unescapeSingle? : Char → Option Char
  | '\\' => some '\\'
  | '\'' => some '\''
  | _ => none

def unescapeDouble? : Char → Option Char
  | '\\' => some '\\'
  | '\'' => some '\''
  | '"' => some '"'
  | 'a' => some '\x07'
  | 'b' => some '\x08'
  | 'f' => some '\x0c'
  | 'n' => some '\n'
  | 'r' => some '\r'
  | 't' => some '\t'
  | 'v' => some '\x0b'
  | _ => none

def unescape (known? : Char → Option Char) : Text → Text
  | '\\' :: c :: rest =>
    match known? c with
    | some d => d :: unescape known? rest
    | none => '\\' :: unescape known? (c :: rest)
  | c :: rest => c :: unescape known? rest
  | [] => []

def readName (t : Text) : Except Stuck (Option Text × Text) :=
  match t with
  | '#' :: _ => .ok (none, t)
  | '\'' :: rest =>
    let name := rest.takeWhile (· ≠ '\'')
    match rest.dropWhile (· ≠ '\'') with
    | _ :: after => if name.isEmpty then .error ⟨t⟩ else .ok (some name, after)
    | [] => .error ⟨t⟩
  | _ =>
    let isNamePart (c : Char) : Bool := c ≠ '=' && c ≠ '#' && !isBlank c
    let name := t.takeWhile isNamePart
    if name.isEmpty then .error ⟨t⟩ else .ok (some name, t.dropWhile isNamePart)

def beforeComment : Text → Text
  | [] => []
  | c :: rest =>
    if isBlank c && (Text.stripStart rest).head? = some '#' then [] else c :: beforeComment rest

def readValue (t : Text) : Except Stuck (Text × Text) :=
  match t with
  | '\'' :: rest =>
    match readQuoted '\'' rest with
    | some (value, after) => .ok (unescape unescapeSingle? value, after)
    | none => .error ⟨t⟩
  | '"' :: rest =>
    match readQuoted '"' rest with
    | some (value, after) => .ok (unescape unescapeDouble? value, after)
    | none => .error ⟨t⟩
  | _ =>
    .ok ((beforeComment (t.takeWhile (· ≠ '\n'))).stripEnd, t.dropWhile (· ≠ '\n'))

def endLine (t : Text) : Except Stuck Text :=
  let commentless := match skipGap t with
    | '#' :: rest => rest.dropWhile (· ≠ '\n')
    | _ => t
  match skipGap commentless with
  | [] => .ok []
  | '\n' :: rest => .ok rest
  | _ => .error ⟨commentless⟩

def readBinding (t : Text) : Except Stuck (Option Binding × Text) := do
  let (name, rest) ← readName (skipExport t)
  let (value, rest) ← match skipGap rest with
    | '=' :: rest => (fun (v, rest) => (some v, rest)) <$> readValue (skipGap rest)
    | rest => Except.ok (none, rest)
  let rest ← endLine rest
  return (name.map fun n => ⟨n, value⟩, rest)

/-- Reads all bindings; `fuel` bounds the lines. -/
def readBindings : Nat → Text → List Binding
  | 0, _ => []
  | fuel + 1, t =>
    match t.stripStart with
    | [] => []
    | start =>
      match readBinding start with
      | .ok (some binding, rest) => binding :: readBindings fuel rest
      | .ok (none, rest) => readBindings fuel rest
      | .error stuck => readBindings fuel ((stuck.rest.dropWhile (· ≠ '\n')).drop 1)

def bindings (t : Text) : List Binding := readBindings (t.length + 1) (unifyLines t)

def put (binding : Binding) : List Binding → List Binding
  | [] => [binding]
  | b :: rest => if b.name = binding.name then binding :: rest else b :: put binding rest

/-- Replaces the references in the values, each by what has been set before it, or else by the
environment. -/
def resolve (environment : Variables) (known : List Binding) : List Binding → List Binding
  | [] => known
  | b :: rest =>
    let lookUp? (name : Text) : Option Text :=
      match known.find? (·.name = name) with
      | some found => some (found.value.getD [])
      | none => Variables.last? id name environment
    resolve environment (put ⟨b.name, b.value.map (Variables.expand lookUp?)⟩ known) rest

def read (environment : Variables) (t : Text) : List (Text × Option Text) :=
  (resolve environment [] (bindings t)).map fun b => (b.name, b.value)

end SoundLaw.VariableFile
