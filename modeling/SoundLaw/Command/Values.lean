import SoundLaw.Command.Arguments
import SoundLaw.Store.Basic
import SoundLaw.Number.Shortest
import SoundLaw.Number.Whole

/-!
The values of options and operands, checked in the order in which the words give them; then what
was not given.
-/
namespace SoundLaw

inductive Value where
  | file (path : Path)
  | share (x : Float)

def namesDirectory (t : Text) : Bool :=
  match t.reverse with
  | '/' :: _ => true
  | ['.'] | '.' :: '/' :: _ => true
  | _ => false

namespace Value

def readFile (store : Store) (t : Text) : Except Text Value :=
  match store.look (Path.ofText t) with
  | .ok .directory =>
    if t.isEmpty then .error ("File " ++ t.quoted ++ " does not exist.")
    else .error ("File " ++ t.quoted ++ " is a directory.")
  | .ok (.file _) =>
    if namesDirectory t then .error ("File " ++ t.quoted ++ " does not exist.")
    else .ok (.file (Path.ofText t))
  | .error _ => .error ("File " ++ t.quoted ++ " does not exist.")

def readShare (t : Text) : Except Text Value :=
  match realOfWord? t with
  | none => .error (t.quoted ++ " is not a valid float range.")
  | some x =>
    if x < 0.0 || x > 1.0 then .error (numeral x ++ " is not in the range 0.0<=x<=1.0.")
    else .ok (.share x)

def read (store : Store) : ValueKind → Text → Except Text Value
  | .file, t => readFile store t
  | .share, t => readShare t

end Value

structure Values where
  options : List (OptionRule × Value)
  flags : List OptionRule
  operands : List Text

namespace Values

def path? (v : Values) (o : OptionRule) : Option Path :=
  match v.options.find? fun entry => entry.1 = o with
  | some (_, .file p) => some p
  | _ => none

def share? (v : Values) (o : OptionRule) : Option Float :=
  match v.options.find? fun entry => entry.1 = o with
  | some (_, .share x) => some x
  | _ => none

end Values

namespace CommandRule

def readOptions (store : Store) (a : Arguments) :
    List OptionRule → Except Complaint (List (OptionRule × Value))
  | [] => .ok []
  | o :: rest =>
    match o.value, a.last? o with
    | some kind, some t =>
      match Value.read store kind t with
      | .error reason => .error (.badValue o.long reason)
      | .ok value => (readOptions store a rest).map fun l => (o, value) :: l
    | _, _ => readOptions store a rest

/-- Gives each operand its words; these are the words left over. -/
def fillOperands : List OperandRule → List Text → Except Complaint (List Text)
  | [], words => .ok words
  | o :: _, [] => .error (.missingOperand o.shown)
  | o :: rest, _ :: words => if o.many then .ok [] else fillOperands rest words

def missingOption? (c : CommandRule) (a : Arguments) : Option OptionRule :=
  c.options.find? fun o => o.required && !a.has o

def values (c : CommandRule) (store : Store) (a : Arguments) : Except Complaint Values := do
  let options ← readOptions store a a.order
  let surplus ← fillOperands c.operands a.operands
  match c.missingOption? a with
  | some o => .error (.missingOption o.long)
  | none =>
    if surplus.isEmpty then return ⟨options, a.order, a.operands⟩ else .error (.surplus surplus)

end CommandRule
end SoundLaw
