import SoundLaw.Journal

/-!
Work that tells how it went. A function tells of its end; a timed block tells of its start and
its end, with fields that its caller chooses. Some names are taken: a field that has one of them
makes the telling fail. This is how it is while records are written as JSON, which they are unless
the settings ask for debugging.
-/
namespace SoundLaw

structure Notice where
  text : Text
  kind : Text
deriving DecidableEq

def Fields.taken? (names : List Text) (fields : Fields) : Option Text :=
  (fields.find? fun entry => entry.1 ∈ names).map Prod.fst

/-- Why timed work fails: by itself, or for a field with a name that is taken. -/
inductive TimingFault (ε : Type) where
  | work (error : ε)
  | taken (name : Text)

variable {ε α : Type}

def timed (source : Source) (function : Text) (notice : ε → Notice) (work : Journal ε α) :
    Journal ε α :=
  match work.outcome with
  | .ok a => ⟨work.events ++ [.completed source function], .ok a⟩
  | .error error =>
    ⟨work.events ++ [.failed source function (notice error).text (notice error).kind],
      .error error⟩

def eventNames : List Text := ["self", "event", "method_name"]

/-- The field that the name of the logger is looked for in; no value but nothing at all passes. -/
def recordName : Text := "_record"

/-- The first field that keeps an event from being told. -/
def Fields.untellable? (fields : Fields) : Option Text :=
  (fields.taken? eventNames).or
    (if (fields.get? recordName).all Json.isNull then none else some recordName)

def note (source : Source) (level : Level) (name : Text) (fields : Fields) :
    Journal (TimingFault ε) Unit :=
  match fields.untellable? with
  | some taken => Journal.raise (.taken taken)
  | none => Journal.tell (.noted source level name fields)

namespace Timer

def ownNames : List Text := ["self", "logger", "operation"]

def success : Fields := [("success", .bool true)]

def failure (n : Notice) : Fields :=
  [("error", .text n.text), ("error_type", .text n.kind), ("success", .bool false)]

/-- Tells of an end, with the duration that is measured apart. -/
def finish (source : Source) (level : Level) (name : Text) (own fields : Fields) :
    Journal (TimingFault ε) Unit :=
  match fields.taken? ("duration_ms".toList :: own.map Prod.fst) with
  | some taken => Journal.raise (.taken taken)
  | none => note source level name (own ++ fields)

end Timer

/-- Work inside a timer: its start, the work, and its end, good or bad. -/
def timer (source : Source) (operation : Text) (fields : Fields) (notice : ε → Notice)
    (work : Journal ε α) : Journal (TimingFault ε) α := do
  match fields.taken? Timer.ownNames with
  | some taken => Journal.raise (.taken taken)
  | none =>
    note source .debug (operation ++ "_started") fields
    match work.outcome with
    | .ok a =>
      ⟨work.events, .ok ()⟩
      Timer.finish source .info (operation ++ "_completed") Timer.success fields
      return a
    | .error error =>
      ⟨work.events, .ok ()⟩
      Timer.finish source .error (operation ++ "_failed") (Timer.failure (notice error)) fields
      Journal.raise (.work error)

end SoundLaw
