import SoundLaw.Json.Basic

/-!
JSON values written as text: on one line in ASCII, or over lines with two blanks for each level.
-/
namespace SoundLaw.Json

def escapeRequired? (c : Char) : Option Text :=
  if c = '"' then some "\\\""
  else if c = '\\' then some "\\\\"
  else if c = '\n' then some "\\n"
  else if c = '\r' then some "\\r"
  else if c = '\t' then some "\\t"
  else if c = '\x08' then some "\\b"
  else if c = '\x0c' then some "\\f"
  else if c.toNat < 0x20 then some ('\\' :: 'u' :: Text.hex 4 c.toNat)
  else none

def escape (c : Char) : Text := (escapeRequired? c).getD [c]

/-- As `escape`, with every character beyond printable ASCII in units of sixteen bits. -/
def escapeAscii (c : Char) : Text :=
  match escapeRequired? c with
  | some escaped => escaped
  | none =>
    let n := c.toNat
    if n < 0x7F then [c]
    else if n < 0x10000 then '\\' :: 'u' :: Text.hex 4 n
    else
      '\\' :: 'u' :: Text.hex 4 (0xD800 + (n - 0x10000) / 0x400) ++
        '\\' :: 'u' :: Text.hex 4 (0xDC00 + (n - 0x10000) % 0x400)

def written (t : Text) : Text := '"' :: t.flatMap escape ++ ['"']

def writtenAscii (t : Text) : Text := '"' :: t.flatMap escapeAscii ++ ['"']

mutual
def inline : Json → Text
  | .null => "null"
  | .bool true => "true"
  | .bool false => "false"
  | .int n => Text.signedDecimal n
  | .float x => numeral x
  | .text t => writtenAscii t
  | .array items => '[' :: List.intercalate ", ".toList (inlineItems items) ++ [']']
  | .object fields => '\x7b' :: List.intercalate ", ".toList (inlineFields fields) ++ ['\x7d']
def inlineItems : List Json → List Text
  | [] => []
  | item :: rest => inline item :: inlineItems rest
def inlineFields : List (Text × Json) → List Text
  | [] => []
  | (name, value) :: rest => (writtenAscii name ++ ": " ++ inline value) :: inlineFields rest
end

def newLine (level : Nat) : Text := '\n' :: List.replicate (2 * level) ' '

mutual
/-- The value over lines; an array or object without content stays on its line. -/
def indented (level : Nat) : Json → Text
  | .null => "null"
  | .bool true => "true"
  | .bool false => "false"
  | .int n => Text.signedDecimal n
  | .float x => numeral x
  | .text t => written t
  | .array [] => "[]"
  | .array (item :: rest) =>
    '[' :: newLine (level + 1) ++ indented (level + 1) item ++ indentedItems (level + 1) rest ++
      newLine level ++ [']']
  | .object [] => "\x7b\x7d"
  | .object ((name, value) :: rest) =>
    '\x7b' :: newLine (level + 1) ++ written name ++ ": " ++ indented (level + 1) value ++
      indentedFields (level + 1) rest ++ newLine level ++ ['\x7d']
def indentedItems (level : Nat) : List Json → Text
  | [] => []
  | item :: rest => ',' :: newLine level ++ indented level item ++ indentedItems level rest
def indentedFields (level : Nat) : List (Text × Json) → Text
  | [] => []
  | (name, value) :: rest =>
    ',' :: newLine level ++ written name ++ ": " ++ indented level value ++ indentedFields level rest
end

end SoundLaw.Json
