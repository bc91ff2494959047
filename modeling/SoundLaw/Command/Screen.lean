import SoundLaw.Unicode.Width

/-!
Texts as the screen shows them. What looks like a tag between brackets is shown as it stands;
before any other opening bracket one backslash is lost, and a single backslash at the end is
doubled.
-/
namespace SoundLaw.Screen

def isTagStart (c : Char) : Bool :=
  ('a' ≤ c && c ≤ 'z') || c = '#' || c = '/' || c = '@'

def readTag : Text → Option (Text × Text)
  | [] => none
  | c :: rest =>
    if c = ']' then some ([c], rest)
    else if c = '[' then none
    else (readTag rest).map fun (t, after) => (c :: t, after)

def beginsTag : Text → Bool
  | c :: rest => isTagStart c && (readTag rest).isSome
  | [] => false

/-- Whether backslashes stand here, at least one, and then an opening bracket of no tag. -/
def loosensBracket : Text → Bool
  | '\\' :: '[' :: rest => !beginsTag rest
  | _ => false

/-- The text without the backslash before each opening bracket of no tag. A tag is passed over as
a whole: `skip` of its characters are left. -/
def unescapeFrom : Nat → Text → Text
  | _, [] => []
  | skip + 1, c :: rest => c :: unescapeFrom skip rest
  | 0, c :: rest =>
    if loosensBracket (c :: rest) then unescapeFrom 0 rest
    else if c = '[' && beginsTag rest then
      let after := ((readTag (rest.drop 1)).map Prod.snd).getD []
      c :: unescapeFrom (rest.length - after.length) rest
    else c :: unescapeFrom 0 rest

def closeBackslash (t : Text) : Text :=
  match t.reverse with
  | '\\' :: '\\' :: _ => t
  | '\\' :: _ => t ++ ['\\']
  | _ => t

def isHidden (c : Char) : Bool := c.toNat = 7 || c.toNat = 8 || (11 ≤ c.toNat && c.toNat ≤ 13)

def expandTabs : Nat → Text → Text
  | _, [] => []
  | column, c :: rest =>
    if c = '\t' then
      List.replicate (8 - column % 8) ' ' ++ expandTabs (column + (8 - column % 8)) rest
    else if c = '\n' then c :: expandTabs 0 rest
    else c :: expandTabs (column + Unicode.cells c.toNat) rest

def shown (t : Text) : Text :=
  expandTabs 0 ((unescapeFrom 0 (closeBackslash t)).filter fun c => !isHidden c)

def line (t : Text) : Text := shown t ++ ['\n']

end SoundLaw.Screen
