import SoundLaw.Command.Grammar
import SoundLaw.Journal

/-!
Runs of commands: what they print, what events they tell, and how they end.
-/
namespace SoundLaw

inductive Ending where
  /-- Help was asked for, or nothing at all. -/
  | help (text : Text) (exit : Nat)
  | usage (rule : CommandRule) (complaint : Complaint)
  | failure (message : Text)
  /-- A fault that no command expects. -/
  | fault

namespace Ending

def exit : Ending → Nat
  | .help _ code => code
  | .usage _ _ => 2
  | .failure _ | .fault => 1

def text : Ending → Text
  | .help text _ => text
  | .usage rule complaint =>
    rule.usage ++ "Try '" ++ rule.call ++ " --help' for help.\n\nError: " ++ complaint.message ++
      ['\n']
  | .failure message => "Error: " ++ message ++ ['\n']
  | .fault => []

end Ending

structure Script (α : Type) where
  printed : Text
  records : List Fields
  outcome : Except Ending α

namespace Script
variable {ε α β : Type}

protected def pure (a : α) : Script α := ⟨[], [], .ok a⟩

protected def bind (first : Script α) (next : α → Script β) : Script β :=
  match first.outcome with
  | .error ending => ⟨first.printed, first.records, .error ending⟩
  | .ok a =>
    ⟨first.printed ++ (next a).printed, first.records ++ (next a).records, (next a).outcome⟩

instance : Monad Script where
  pure := Script.pure
  bind := Script.bind

def finish (ending : Ending) : Script α := ⟨[], [], .error ending⟩

def say (t : Text) : Script Unit := ⟨t, [], .ok ()⟩

def perform (language : Option Text) (ending : ε → Ending) (work : Journal ε α) : Script α :=
  ⟨[], work.events.map (Event.record language), work.outcome.mapError ending⟩

end Script

structure Report where
  exit : Nat
  output : Text
  records : List Fields

def Script.report (s : Script Unit) : Report :=
  match s.outcome with
  | .ok () => ⟨0, s.printed, s.records⟩
  | .error ending => ⟨ending.exit, s.printed ++ ending.text, s.records⟩

end SoundLaw
