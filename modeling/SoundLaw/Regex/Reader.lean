import SoundLaw.Regex.Names
import SoundLaw.Regex.Refusal

/-!
Texts read as regular expressions. A flag group counts from its place to the end of the group that
it stands in; flags that only a whole pattern can have make the reading start again with them.

Not all notation is known. The flags for verbose text, for reversed matching, for full folding of
case and for the sets of version 1 change nothing here, and counts of errors are letters. Recursion,
conditions, shared group numbers, verbs, named lists, scripts, `\K`, `\G`, `\X` and names of
characters are faults.
-/
namespace SoundLaw.Regex

inductive Flag where
  | ascii | bestMatch | enhance | fullCase | ignoreCase | locale | multiline | longest | reverse
  | dotAll | unicode | wordBreaks | verbose | version0 | version1
deriving DecidableEq

abbrev Flags := List Flag

namespace Flag

/-- Flags that only a whole pattern can have. -/
def isGlobal : Flag → Bool
  | .bestMatch | .enhance | .longest | .reverse | .version0 | .version1 => true
  | _ => false

def isKind : Flag → Bool
  | .ascii | .locale | .unicode => true
  | _ => false

def ofText? : Text → Option (Flag × Nat)
  | 'V' :: '0' :: _ => some (.version0, 2)
  | 'V' :: '1' :: _ => some (.version1, 2)
  | 'a' :: _ => some (.ascii, 1)
  | 'b' :: _ => some (.bestMatch, 1)
  | 'e' :: _ => some (.enhance, 1)
  | 'f' :: _ => some (.fullCase, 1)
  | 'i' :: _ => some (.ignoreCase, 1)
  | 'L' :: _ => some (.locale, 1)
  | 'm' :: _ => some (.multiline, 1)
  | 'p' :: _ => some (.longest, 1)
  | 'r' :: _ => some (.reverse, 1)
  | 's' :: _ => some (.dotAll, 1)
  | 'u' :: _ => some (.unicode, 1)
  | 'w' :: _ => some (.wordBreaks, 1)
  | 'x' :: _ => some (.verbose, 1)
  | _ => none

end Flag

namespace Flags

def ignoresCase (flags : Flags) : Bool := Flag.ignoreCase ∈ flags

/-- Two versions, or two of the kinds of characters, exclude one another. -/
def conflict? (flags : Flags) : Option FlagConflict :=
  let kinds := [Flag.ascii, .locale, .unicode].filter fun f => f ∈ flags
  if Flag.version0 ∈ flags && Flag.version1 ∈ flags then some .versions
  else if kinds.length > 1 then some .characters
  else none

def turned (flags on off : Flags) : Flags := on ++ flags.filter fun f => f ∉ off

/-- The flags of a part for which some are turned on and some off. Kinds of characters it takes
from these alone. -/
def inPart (flags on off : Flags) : Flags :=
  on ++ flags.filter fun f => f ∉ off && !f.isKind

end Flags

/-- Flags of a whole pattern. -/
structure WholeFlags where
  flags : Flags
  whole : ∀ f ∈ flags, f.isGlobal = true

namespace WholeFlags

def none : WholeFlags := ⟨[], fun _ member => absurd member List.not_mem_nil⟩

def add (w : WholeFlags) (more : Flags) : WholeFlags where
  flags := w.flags ++ more.filter fun f => f.isGlobal && f ∉ w.flags
  whole f member := by
    rcases List.mem_append.mp member with known | new
    · exact w.whole f known
    · simp only [List.mem_filter, Bool.and_eq_true] at new
      exact new.2.1

end WholeFlags

/-- What is left to read, and what is known of the groups so far. -/
structure Source where
  rest : Text
  position : Nat
  groups : Nat
  names : List (Text × Nat)
  opened : List Nat
  refs : List (GroupRef × Nat)

def Source.ofText (t : Text) : Source := ⟨t, 0, 0, [], [], []⟩

/-- Reading ends early for a fault, or starts again with further flags. -/
inductive Stop where
  | fault (f : SyntaxFault)
  | restart (w : WholeFlags)

abbrev Read := StateT Source (Except Stop)

namespace Read
variable {α : Type}

def failAt (reason : Reason) (position : Nat) : Read α :=
  fun _ => .error (.fault ⟨reason, position⟩)

def fail (reason : Reason) : Read α := fun s => .error (.fault ⟨reason, s.position⟩)

def skip (n : Nat) : Read Unit :=
  modify fun s => { s with rest := s.rest.drop n, position := s.position + n }

def next? : Read (Option Char) := do
  match (← get).rest with
  | [] => return none
  | c :: _ =>
    skip 1
    return some c

def accept (c : Char) : Read Bool := do
  if (← get).rest.head? = some c then
    skip 1
    return true
  else return false

def expect (c : Char) : Read Unit := do
  unless ← accept c do fail (.missing c)

def span (p : Char → Bool) : Read Text := do
  let t := (← get).rest.takeWhile p
  skip t.length
  return t

def orElse (first second : Read α) : Read α := fun s =>
  match first s with
  | .error (.fault _) => second s
  | result => result

/-! ### Groups -/

/-- Opens a group; groups of one name share their number. -/
def openGroup (name : Option Text) : Read Nat := do
  let s ← get
  let known := name.bind fun t => (s.names.find? (·.1 = t)).map Prod.snd
  match known with
  | some n =>
    set { s with opened := n :: s.opened }
    return n
  | none =>
    let n := s.groups + 1
    let names := match name with
      | some t => (t, n) :: s.names
      | none => s.names
    set { s with groups := n, names := names, opened := n :: s.opened }
    return n

def closeGroup : Read Unit := modify fun s => { s with opened := s.opened.drop 1 }

def isOpen (ref : GroupRef) : Read Bool := do
  let s ← get
  match ref with
  | .number n => return decide (n ∈ s.opened)
  | .name t =>
    return match s.names.find? (·.1 = t) with
      | some (_, n) => decide (n ∈ s.opened)
      | none => false

/-- A reference that is looked up when all groups are known. -/
def refer (flags : Flags) (ref : GroupRef) (position : Nat) : Read Pattern := do
  modify fun s => { s with refs := (ref, position) :: s.refs }
  return .again ref flags.ignoresCase

def isName : Text → Bool
  | [] => false
  | c :: rest => Unicode.isNameStart c.toNat && rest.all fun c => Unicode.isNamePart c.toNat

def groupName (allowNumber : Bool) : Read GroupRef := do
  let t ← span fun c => c ≠ ')' && c ≠ '>'
  if t.isEmpty then fail .missingGroupName
  else if Text.isNumeral t then
    let n := Text.value 10 t
    if allowNumber && n ≥ 1 then return .number n else fail .badGroupName
  else if isName t then return .name t
  else fail .badGroupName

/-! ### Escapes -/

/-- What an escape stands for inside a class and outside of it. -/
inductive Escaped where
  | code (n : Nat)
  | property (p : Property) (positive : Bool)

def isPropertyNamePart (c : Char) : Bool :=
  c.isAlphanum || c = ' ' || c = '&' || c = '_' || c = '-' || c = '.'

def propertyName : Read (Option Text × Text) := do
  let name ← span isPropertyNamePart
  let saved ← get
  match ← next? with
  | some c =>
    if c = ':' || c = '=' then
      let t ← span fun c => isPropertyNamePart c || c = '/'
      let trimmed := ((t.dropWhile (· = ' ')).reverse.dropWhile (· = ' ')).reverse
      if trimmed.isEmpty then
        set saved
        return (none, name)
      else return (some name, trimmed)
    else
      set saved
      return (none, name)
  | none => return (none, name)

def lookUp (qualifier : Option Text) (name : Text) (narrow : Bool) : Read Property :=
  match qualifier with
  | some q =>
    if isCategoryQualifier q then
      match findName categoryNames (standardName name) with
      | some p => return p
      | none => fail .unknownPropertyValue
    else fail .unknownProperty
  | none =>
    match namedProperty? name narrow with
    | some p => return p
    | none => fail .unknownProperty

/-- Reads what follows `\p` or `\P`; what is no property name leaves the letter alone. -/
def property (positive : Bool) : Read Escaped := do
  let saved ← get
  let plain : Read Escaped := do
    set saved
    return .code (if positive then 0x70 else 0x50)
  match ← next? with
  | some '\x7b' =>
    let negated ← accept '^'
    let (qualifier, name) ← propertyName
    if ← accept '\x7d' then
      return .property (← lookUp qualifier name false) (positive != negated)
    else plain
  | some c =>
    if c ∈ "CLMNPSZ".toList then return .property (← lookUp none [c] false) positive
    else plain
  | none => plain

def hexEscape (letter : Char) (count : Nat) : Read Escaped := do
  let start := (← get).position
  let digits := ((← get).rest.take count).takeWhile (Text.isDigitIn 16)
  skip digits.length
  if digits.length < count then failAt (.incompleteEscape (letter :: digits)) start
  else
    let n := Text.value 16 digits
    if n < 0x110000 then return .code n else failAt (.badHexEscape (letter :: digits)) start

def octalEscape (first : Char) : Read Escaped := do
  let more := ((← get).rest.take 2).takeWhile (Text.isDigitIn 8)
  skip more.length
  if Text.isDigitIn 8 first then return .code (Text.value 8 (first :: more))
  else fail (.badEscape [first])

def classEscape? (flags : Flags) (c : Char) : Option Escaped :=
  let narrow := Flag.ascii ∈ flags
  let digits : Property := if narrow then .asciiDigit else .digit
  let spaces : Property := if narrow then .asciiSpace else .space
  let words : Property := if narrow then .asciiWord else .word
  match c with
  | 'd' => some (.property digits true)
  | 'D' => some (.property digits false)
  | 's' => some (.property spaces true)
  | 'S' => some (.property spaces false)
  | 'w' => some (.property words true)
  | 'W' => some (.property words false)
  | 'h' => some (.property .blank true)
  | _ => none

def controlEscape? : Char → Option Nat
  | 'a' => some 0x07
  | 'b' => some 0x08
  | 'f' => some 0x0C
  | 'n' => some 0x0A
  | 'r' => some 0x0D
  | 't' => some 0x09
  | 'v' => some 0x0B
  | _ => none

def anchorEscape? : Char → Option Anchor
  | 'A' => some .start
  | 'Z' => some .finish
  | 'b' => some .boundary
  | 'B' => some .noBoundary
  | 'm' => some .wordStart
  | 'M' => some .wordFinish
  | _ => none

def namedCharacter : Read Escaped := do
  let saved ← get
  if ← accept '\x7b' then
    let _ ← span fun c => c.isAlphanum || c = ' ' || c = '-'
    if ← accept '\x7d' then fail .unknownName
  set saved
  return .code 0x4E

def sharedEscape (flags : Flags) (c : Char) : Read Escaped :=
  match c with
  | 'x' => hexEscape 'x' 2
  | 'u' => hexEscape 'u' 4
  | 'U' => hexEscape 'U' 8
  | 'N' => namedCharacter
  | 'p' => property true
  | 'P' => property false
  | _ =>
    if c.isAlpha then
      match classEscape? flags c, controlEscape? c with
      | some e, _ => return e
      | none, some n => return .code n
      | none, none => fail (.badEscape [c])
    else return .code c.toNat

def Escaped.pattern (flags : Flags) : Escaped → Pattern
  | .code n => .one (.code n flags.ignoresCase)
  | .property p positive => .one (.oneOf ⟨[.property p positive], false, flags.ignoresCase⟩)

def numberEscape (flags : Flags) (first : Char) : Read Pattern := do
  if first = '0' then return (← octalEscape first).pattern flags
  else
    let digits := (← get).rest.take 2 |>.takeWhile (Text.isDigitIn 10)
    let all := first :: digits
    if all.length = 3 && all.all (Text.isDigitIn 8) then
      skip 2
      return .one (.code (Text.value 8 all % 0x200) flags.ignoresCase)
    else
      let named := all.take 2
      skip (named.length - 1)
      let ref := GroupRef.number (Text.value 10 named)
      if ← isOpen ref then fail .openGroup
      else refer flags ref (← get).position

def groupEscape (flags : Flags) : Read Pattern := do
  expect '<'
  let start := (← get).position
  let ref ← groupName true
  expect '>'
  if ← isOpen ref then fail .openGroup
  else refer flags ref start

def lineBreak : Pattern :=
  .atomic (.alt (.seq (.one (.code 0x0D false)) (.one (.code 0x0A false)))
    (.one (.oneOf ⟨[.range 0x0A 0x0D, .code 0x85, .range 0x2028 0x2029], false, false⟩)))

def escape (flags : Flags) : Read Pattern := do
  match ← next? with
  | none => fail .patternEnd
  | some c =>
    if c = 'g' then orElse (groupEscape flags) (return (Escaped.code 0x67).pattern flags)
    else if c = 'R' then return lineBreak
    else if c.isDigit then numberEscape flags c
    else match anchorEscape? c with
      | some a => return .anchor a
      | none => return (← sharedEscape flags c).pattern flags

def escapeInClass (flags : Flags) : Read Escaped := do
  match ← next? with
  | none => fail .patternEnd
  | some c =>
    if c.isDigit then octalEscape c
    else if c = 'g' then return .code 0x67
    else sharedEscape flags c

/-! ### Classes of characters -/

def namedClass : Read (Option Escaped) := do
  let negated ← accept '^'
  let (qualifier, name) ← propertyName
  if (← get).rest.take 2 = [':', ']'] then
    skip 2
    return some (.property (← lookUp qualifier name true) (!negated))
  else return none

def classItem (flags : Flags) : Read Escaped := do
  if ← accept '\\' then escapeInClass flags
  else
    let saved ← get
    let named ← if saved.rest.take 2 = ['[', ':'] then (do skip 2; namedClass) else pure none
    match named with
    | some e => return e
    | none =>
      set saved
      match ← next? with
      | some c => return .code c.toNat
      | none => fail .unterminatedClass

def classMember (flags : Flags) : Read (List Member) := do
  match ← classItem flags with
  | .property p positive => return [.property p positive]
  | .code first =>
    if !(← accept '-') then return [.code first]
    else if (← get).rest.head? = some ']' then return [.code first, .code 0x2D]
    else match ← classItem flags with
      | .property p positive => return [.code first, .code 0x2D, .property p positive]
      | .code last => if first > last then fail .badRange else return [.range first last]

def classMembers (flags : Flags) : Nat → List Member → Read (List Member)
  | 0, _ => fail .tooDeep
  | fuel + 1, members => do
    let members := members ++ (← classMember flags)
    if ← accept ']' then return members else classMembers flags fuel members

def charClass (flags : Flags) : Read Pattern := do
  let negated ← accept '^'
  let members ← classMembers flags ((← get).rest.length + 1) []
  return .one (.oneOf ⟨members, negated, flags.ignoresCase⟩)

/-! ### Repeats -/

def unlimited : Nat := 0xFFFFFFFF

def countedRepeat : Read (Option (Nat × Option Nat)) := do
  let saved ← get
  let least ← span (Text.isDigitIn 10)
  let comma ← accept ','
  let most ← if comma then span (Text.isDigitIn 10) else pure least
  if (!comma && least.isEmpty) || !(← accept '\x7d') then
    set saved
    return none
  else
    let min := Text.value 10 least
    let max := if most.isEmpty then none else some (Text.value 10 most)
    if min ≥ unlimited || max.any (· ≥ unlimited) then failAt .repeatTooBig saved.position
    else if max.any (· < min) then failAt .leastAboveMost saved.position
    else return some (min, max)

def repeatCounts (c : Char) : Read (Option (Nat × Option Nat)) :=
  match c with
  | '?' => return some (0, some 1)
  | '*' => return some (0, none)
  | '+' => return some (1, none)
  | _ => countedRepeat

def greed : Read Greed := do
  if ← accept '?' then return .lazy
  else if ← accept '+' then return .possessive
  else return .greedy

/-- Repeats the element read last. The marks between elements say that the one before has been
repeated, or that there is none. -/
def repeatLast (position : Nat) (counts : Nat × Option Nat) :
    List (Option Pattern) → Read (List (Option Pattern))
  | some p :: before => do
    let g ← greed
    let repeated := if p.isBare || counts = (1, some 1) then p else .repeated g counts.1 counts.2 p
    return none :: some repeated :: before
  | none :: _ :: _ => failAt .multipleRepeat position
  | _ => failAt .nothingToRepeat position

/-! ### Flags -/

def flagSet : Nat → Read Flags
  | 0 => return []
  | fuel + 1 => do
    match Flag.ofText? (← get).rest with
    | none => return []
    | some (flag, n) =>
      skip n
      return flag :: (← flagSet fuel)

def flagSets : Read (Flags × Flags) := do
  let fuel := (← get).rest.length
  let on ← flagSet fuel
  if ← accept '-' then
    let off ← flagSet fuel
    if off.isEmpty then fail .noFlagsOff else return (on, off)
  else return (on, [])

def requireWhole (w : WholeFlags) (on : Flags) : Read Unit := fun s =>
  if on.all fun f => !f.isGlobal || f ∈ w.flags then .ok ((), s)
  else .error (.restart (w.add on))

def comment : Nat → Read Unit
  | 0 => expect ')'
  | fuel + 1 => do
    match (← get).rest with
    | [] => expect ')'
    | ')' :: _ => expect ')'
    | '\\' :: _ => do skip 2; comment fuel
    | _ => do skip 1; comment fuel

/-! ### Patterns -/

def dot (flags : Flags) : Pattern :=
  .one (if Flag.dotAll ∈ flags then .anything else .notNewline)

def finish (elements : List (Option Pattern)) : Pattern :=
  .ofList (elements.reverse.filterMap id)

/-- What a parenthesis adds to a pattern: an element, or the flags that hold after it. -/
inductive Bracketed where
  | element (p : Pattern)
  | flags (flags : Flags)

mutual
/-- Reads alternatives, from flags to the flags that hold at their end; `w` are those of the whole
pattern. -/
def alternatives (w : WholeFlags) (flags : Flags) : Nat → Read (Pattern × Flags)
  | 0 => fail .tooDeep
  | fuel + 1 => do
    let (first, flags) ← elements w flags fuel [none]
    if ← accept '|' then
      let (others, flags) ← alternatives w flags fuel
      return (.alt first others, flags)
    else return (first, flags)
def elements (w : WholeFlags) (flags : Flags) :
    Nat → List (Option Pattern) → Read (Pattern × Flags)
  | 0, _ => fail .tooDeep
  | fuel + 1, before => do
    let start := (← get).position
    match (← get).rest with
    | [] => return (finish before, flags)
    | c :: _ =>
      if c = ')' || c = '|' then return (finish before, flags)
      else
        skip 1
        if c = '\\' then
          let p ← escape flags
          elements w flags fuel (some p :: before)
        else if c = '(' then
          match ← parenthesis w flags fuel with
          | .element p => elements w flags fuel (some p :: before)
          | .flags later => elements w later fuel before
        else if c = '.' then elements w flags fuel (some (dot flags) :: before)
        else if c = '[' then
          let p ← charClass flags
          elements w flags fuel (some p :: before)
        else if c = '^' then
          let a := if Flag.multiline ∈ flags then Anchor.lineStart else .start
          elements w flags fuel (some (.anchor a) :: before)
        else if c = '$' then
          let a := if Flag.multiline ∈ flags then Anchor.lineFinish else .finishOrNewline
          elements w flags fuel (some (.anchor a) :: before)
        else if c = '?' || c = '*' || c = '+' || c = '\x7b' then
          match ← repeatCounts c with
          | some counts =>
            let repeated ← repeatLast start counts before
            elements w flags fuel repeated
          | none =>
            elements w flags fuel (some (.one (.code c.toNat flags.ignoresCase)) :: before)
        else
          elements w flags fuel (some (.one (.code c.toNat flags.ignoresCase)) :: before)
/-- Reads what follows an opening parenthesis. The flags inside do not count outside. -/
def parenthesis (w : WholeFlags) (flags : Flags) : Nat → Read Bracketed
  | 0 => fail .tooDeep
  | fuel + 1 => do
    let closed (flags : Flags) : Read Pattern := do
      let (p, _) ← alternatives w flags fuel
      expect ')'
      return p
    let named : Read Bracketed := do
      match ← groupName false with
      | .name t =>
        let n ← openGroup (some t)
        expect '>'
        let p ← closed flags
        closeGroup
        return .element (.group n p)
      | .number _ => fail .badGroupName
    let flagged : Read Bracketed := do
      let (on, off) ← flagSets
      if off.any Flag.isGlobal then fail .globalFlagOff
      else if on.any (fun f => f ∈ off) then fail .flagOnAndOff
      else
        requireWhole w on
        let on := on.filter fun f => !f.isGlobal
        if ← accept ':' then return .element (← closed (flags.inPart on off))
        else if ← accept ')' then return .flags (flags.turned on off)
        else fail .unknownExtension
    if ← accept '?' then
      let saved ← get
      match saved.rest with
      | '<' :: '=' :: _ =>
        skip 2
        return .element (.look true false (← closed flags))
      | '<' :: '!' :: _ =>
        skip 2
        return .element (.look true true (← closed flags))
      | '<' :: _ =>
        skip 1
        named
      | '=' :: _ =>
        skip 1
        return .element (.look false false (← closed flags))
      | '!' :: _ =>
        skip 1
        return .element (.look false true (← closed flags))
      | 'P' :: '<' :: _ =>
        skip 2
        named
      | 'P' :: '=' :: _ =>
        skip 2
        let ref ← groupName true
        expect ')'
        if ← isOpen ref then failAt .openGroup (saved.position + 1)
        else return .element (← refer flags ref (saved.position + 1))
      | 'P' :: _ => failAt .unknownExtension (saved.position + 1)
      | '#' :: _ =>
        skip 1
        comment saved.rest.length
        return .flags flags
      | '>' :: _ =>
        skip 1
        return .element (.atomic (← closed flags))
      | _ => flagged
    else
      let n ← openGroup none
      let p ← closed flags
      closeGroup
      return .element (.group n p)
end

def checkRefs (s : Source) : List (GroupRef × Nat) → Option SyntaxFault
  | [] => none
  | (.name t, position) :: rest =>
    if s.names.any (·.1 = t) then checkRefs s rest else some ⟨.unknownGroup, position⟩
  | (.number n, position) :: rest =>
    if 1 ≤ n && n ≤ s.groups then checkRefs s rest else some ⟨.invalidGroup, position⟩

def whole (w : WholeFlags) (t : Text) : Except Stop ((Pattern × Flags) × Source) :=
  alternatives w w.flags (4 * t.length + 4) (Source.ofText t)

end Read

/-- Reads a text as often as new flags of the whole pattern turn up. -/
def compileWith (t : Text) : Nat → WholeFlags → Except Refused Pattern
  | 0, _ => .error (.syntaxFault ⟨.tooDeep, 0⟩)
  | fuel + 1, w =>
    match Read.whole w t with
    | .error (.restart w) => compileWith t fuel w
    | .error (.fault f) => .error (.syntaxFault f)
    | .ok ((p, flags), s) =>
      if !s.rest.isEmpty then .error (.syntaxFault ⟨.unbalanced, s.position⟩)
      else match flags.conflict? with
        | some c => .error (.conflictingFlags c)
        | none => match Read.checkRefs s s.refs.reverse with
          | some f => .error (.syntaxFault f)
          | none => .ok (p.resolve s.names)

def compile (t : Text) : Except Refused Pattern := compileWith t 17 .none

end SoundLaw.Regex
