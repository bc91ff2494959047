import SoundLaw.Command.Grammar
import SoundLaw.Command.Resemblance

/-!
The words of a call taken apart into options and operands. Options may stand between operands,
up to a word of two hyphens.
-/
namespace SoundLaw

structure Given where
  option : OptionRule
  value : Option Text
deriving DecidableEq

structure Arguments where
  given : List Given := []
  operands : List Text := []
deriving DecidableEq

namespace Arguments

def addOperand (word : Text) (a : Arguments) : Arguments :=
  { a with operands := word :: a.operands }

end Arguments

inductive WordKind where
  | finish
  | operand
  /-- Options that are complete. -/
  | complete (given : List Given)
  /-- Options, the last of which takes the next word as its value. -/
  | unfinished (given : List Given) (last : OptionRule) (name : Text)
deriving DecidableEq

namespace CommandRule

def splitValue (word : Text) : Text × Option Text :=
  match word.dropWhile (· ≠ '=') with
  | _ :: value => (word.takeWhile (· ≠ '='), some value)
  | [] => (word, none)

/-- Letters behind a single hyphen: options without a value, and at the end perhaps one with a
value, which is what is left of the word or else the next word. -/
def readLetters (c : CommandRule) : List Given → Text → Except Complaint WordKind
  | before, [] => .ok (.complete before.reverse)
  | before, letter :: rest =>
    match c.short? letter with
    | none => .error (.unknownOption ['-', letter] [])
    | some o =>
      if o.value.isNone then readLetters c (⟨o, none⟩ :: before) rest
      else if rest.isEmpty then .ok (.unfinished before.reverse o ['-', letter])
      else .ok (.complete ((⟨o, some rest⟩ :: before).reverse))

def readWord (c : CommandRule) (word : Text) : Except Complaint WordKind :=
  match word with
  | ['-', '-'] => .ok .finish
  | '-' :: letter :: rest =>
    let (name, value) := splitValue word
    match c.long? name with
    | some o =>
      match o.value, value with
      | none, none => .ok (.complete [⟨o, none⟩])
      | none, some _ => .error (.needlessValue name)
      | some _, some v => .ok (.complete [⟨o, some v⟩])
      | some _, none => .ok (.unfinished [] o name)
    | none =>
      if letter = '-' then
        .error (.unknownOption name (Resemblance.among (c.allOptions.map OptionRule.long) name))
      else c.readLetters [] (letter :: rest)
  | _ => .ok .operand

/-- Takes the words apart; `interspersed` says whether options may follow an operand. -/
def readWords (c : CommandRule) (interspersed : Bool) : List Text → Except Complaint Arguments
  | [] => .ok {}
  | word :: rest =>
    match c.readWord word with
    | .error e => .error e
    | .ok .finish => .ok { operands := rest }
    | .ok .operand =>
      if interspersed then (readWords c interspersed rest).map (Arguments.addOperand word)
      else .ok { operands := word :: rest }
    | .ok (.complete given) =>
      (readWords c interspersed rest).map fun a => { a with given := given ++ a.given }
    | .ok (.unfinished given last name) =>
      match rest with
      | [] => .error (.noValue name)
      | value :: rest =>
        (readWords c interspersed rest).map fun a =>
          { a with given := given ++ ⟨last, some value⟩ :: a.given }

end CommandRule

namespace Arguments

def last? (a : Arguments) (o : OptionRule) : Option Text :=
  (a.given.reverse.find? fun g => g.option = o).bind Given.value

def has (a : Arguments) (o : OptionRule) : Bool := a.given.any fun g => g.option = o

def order (a : Arguments) : List OptionRule := distinct (a.given.map Given.option)

end Arguments
end SoundLaw
