import SoundLaw.Unicode.Property
import SoundLaw.Unicode.Folding

/-!
Regular expressions as trees: tests of single characters, anchors, groups, repeats, lookarounds.
-/
namespace SoundLaw.Regex

inductive Property where
  | category (c : Unicode.Category)
  | major (m : Unicode.Category.Major)
  | cased
  | alphabetic | uppercase | lowercase
  | digit | asciiDigit | hexDigit
  | space | asciiSpace | blank
  | word | asciiWord
  | alphanumeric | punctuation
  | graphic | printable
  | any | assigned | ascii
deriving DecidableEq

namespace Property
open Unicode

def isCased (n : Nat) : Bool :=
  match Unicode.category n with
  | .lu | .ll | .lt => true
  | _ => false

def isBlankSpace (n : Nat) : Bool := n == 0x09 || Unicode.category n == .zs

def isGraphic (n : Nat) : Bool :=
  !isSpace n && match Unicode.category n with
    | .cc | .cs | .cn => false
    | _ => true

def holds : Property → Nat → Bool
  | .category c, n => Unicode.category n == c
  | .major m, n => (Unicode.category n).major == m
  | .cased, n => isCased n
  | .alphabetic, n => isAlphabetic n
  | .uppercase, n => isUppercase n
  | .lowercase, n => isLowercase n
  | .digit, n => Unicode.category n == .nd
  | .asciiDigit, n => 0x30 ≤ n && n ≤ 0x39
  | .hexDigit, n => (0x30 ≤ n && n ≤ 0x39) || (0x41 ≤ n && n ≤ 0x46) || (0x61 ≤ n && n ≤ 0x66)
  | .space, n => isSpace n
  | .asciiSpace, n => n < 128 && isSpace n
  | .blank, n => isBlankSpace n
  | .word, n => isWord n
  | .asciiWord, n => n < 128 && isWord n
  | .alphanumeric, n => isAlphabetic n || (0x30 ≤ n && n ≤ 0x39)
  | .punctuation, n =>
    (Unicode.category n).major == .punctuation ||
      (n < 128 && (Unicode.category n).major == .symbol)
  | .graphic, n => isGraphic n
  | .printable, n => isGraphic n || (isBlankSpace n && Unicode.category n != .cc)
  | .any, _ => true
  | .assigned, n => Unicode.category n != .cn
  | .ascii, n => n < 128

/-- The property that counts where case does not: the cases stand for one another. -/
def withoutCase : Property → Property
  | .category .lu | .category .ll | .category .lt | .uppercase | .lowercase => .cased
  | p => p

end Property

inductive Member where
  | code (n : Nat)
  | range (first last : Nat)
  | property (p : Property) (positive : Bool)
deriving DecidableEq

structure CharClass where
  members : List Member
  negated : Bool
  ignoreCase : Bool
deriving DecidableEq

inductive CharTest where
  | code (n : Nat) (ignoreCase : Bool)
  | notNewline
  | anything
  | oneOf (c : CharClass)
deriving DecidableEq

def caseVariants (n : Nat) : List Nat :=
  let folded := Unicode.fold n
  let unfolded := Unicode.foldRows.filterMap fun row =>
    let m := (Int.ofNat folded - row.distance).toNat
    if row.holds m then some m else none
  (n :: folded :: unfolded) ++ [0x49, 0x69, 0x130, 0x131].filter (Unicode.sameButCase n)

namespace Member

def holds : Member → Nat → Bool
  | .code m, n => m == n
  | .range first last, n => first ≤ n && n ≤ last
  | .property p positive, n => p.holds n == positive

def withoutCase : Member → Member
  | .property p positive => .property p.withoutCase positive
  | m => m

end Member

def CharClass.holds (c : CharClass) (n : Nat) : Bool :=
  let found :=
    if c.ignoreCase then
      (caseVariants n).any fun v => c.members.any fun m => m.withoutCase.holds v
    else c.members.any fun m => m.holds n
  found != c.negated

def CharTest.holds : CharTest → Nat → Bool
  | .code m ignoreCase, n => if ignoreCase then Unicode.sameButCase m n else m == n
  | .notNewline, n => n != 0x0A
  | .anything, _ => true
  | .oneOf c, n => c.holds n

inductive Anchor where
  | start | finish | finishOrNewline
  | lineStart | lineFinish
  | boundary | noBoundary | wordStart | wordFinish
deriving DecidableEq

inductive GroupRef where
  | number (n : Nat)
  | name (t : Text)
deriving DecidableEq

/-- How many rounds of a repeat are tried first, and whether fewer or more are tried later. -/
inductive Greed where
  | greedy | lazy | possessive
deriving DecidableEq

inductive Pattern where
  | empty
  | one (test : CharTest)
  | anchor (a : Anchor)
  | seq (first second : Pattern)
  | alt (first second : Pattern)
  | group (n : Nat) (body : Pattern)
  | again (ref : GroupRef) (ignoreCase : Bool)
  | look (behind negative : Bool) (body : Pattern)
  | atomic (body : Pattern)
  | repeated (greed : Greed) (least : Nat) (most : Option Nat) (body : Pattern)
deriving DecidableEq

namespace Pattern

def ofList : List Pattern → Pattern
  | [] => .empty
  | [p] => p
  | p :: rest => .seq p (ofList rest)

def isBare : Pattern → Bool
  | .empty => true
  | .one _ | .anchor _ | .again _ _ => false
  | .seq p q | .alt p q => p.isBare && q.isBare
  | .group _ p | .look _ _ p | .atomic p | .repeated _ _ _ p => p.isBare

/-- References by number only, where the name is known. -/
def resolve (names : List (Text × Nat)) : Pattern → Pattern
  | .again (.name t) ignoreCase =>
    match names.find? (·.1 = t) with
    | some (_, n) => .again (.number n) ignoreCase
    | none => .again (.name t) ignoreCase
  | .seq p q => .seq (p.resolve names) (q.resolve names)
  | .alt p q => .alt (p.resolve names) (q.resolve names)
  | .group n p => .group n (p.resolve names)
  | .look behind negative p => .look behind negative (p.resolve names)
  | .atomic p => .atomic (p.resolve names)
  | .repeated greed least most p => .repeated greed least most (p.resolve names)
  | p => p

end Pattern
end SoundLaw.Regex
