import SoundLaw.Proofs.Schema.Collecting

/-!
Problems that end a check. A check put together from others ends in the problem of the first part
that has one, whatever issues the parts before it report; checks that collect have none.
-/
namespace SoundLaw

namespace Checked
variable {α β : Type} {a : Checked α} {check : Json → Checked α}

def problem? (c : Checked α) : Option Problem :=
  match c.outcome with
  | .error (.problem p) => some p
  | _ => none

theorem problem?_eq_some {p : Problem} :
    a.problem? = some p ↔ a.outcome = .error (.problem p) := by
  unfold problem?
  rcases a.outcome with (_ | _) | _ <;> simp

theorem problem?_eq_none : a.problem? = none ↔ Collects a := by
  rw [Option.eq_none_iff_forall_ne_some]
  exact forall_congr' fun p => not_congr problem?_eq_some

theorem problem?_inside (place : Place) (c : Checked α) :
    (inside place c).problem? = c.problem? := by
  unfold problem?
  rw [inside, Journal.outcome_mapError]
  rcases c.outcome with (_ | _) | _ <;> rfl

theorem problem?_map (f : α → β) (c : Checked α) : (f <$> c).problem? = c.problem? := by
  unfold problem?
  rw [Journal.outcome_map]
  rcases c.outcome with (_ | _) | _ <;> rfl

theorem problem?_both (a : Checked α) (b : Checked β) :
    (both a b).problem? = a.problem?.or b.problem? := by
  unfold problem?
  rw [outcome_both]
  rcases a.outcome with (_ | _) | _ <;> rcases b.outcome with (_ | _) | _ <;> rfl

theorem problem?_eachFrom (check : Json → Checked α) (i : Nat) (items : List Json) :
    (eachFrom check i items).problem? = items.findSome? fun item => (check item).problem? := by
  induction items generalizing i with
  | nil => rfl
  | cons item rest ih =>
    rw [eachFrom, problem?_map, problem?_both, problem?_inside, ih, List.findSome?_cons]
    cases (check item).problem? <;> rfl

/-- Only what the check of its first part gives is checked on, so a problem of either stays. -/
theorem collects_bind {next : α → Checked β} (first : Collects a)
    (later : ∀ value, Collects (next value)) : Collects (a >>= next) := by
  intro p
  rw [Journal.outcome_bind]
  rcases first.passes_or with ⟨value, passes⟩ | refused
  · rw [passes]
    exact later value p
  · rw [refused]
    exact nofun

end Checked

/-! ### Values and fields -/

open Checked

namespace Json
variable {α : Type} {check : Json → Checked α}

def items : Json → List Json
  | .array items => items
  | _ => []

def listed (name : Text) (v : Json) : List Json := ((v.field? name).map items).getD []

theorem collects_checkText (v : Json) : Collects (checkText v) := (lacks_checkText v).collects

theorem collects_checkTexts (v : Json) : Collects (checkTexts v) := (lacks_checkTexts v).collects

theorem collects_checkWhole (v : Json) : Collects (checkWhole v) := by
  unfold checkWhole
  split
  · exact collects_pure _
  · exact collects_pure _
  · split <;> simp
  · split <;> simp
  · exact collects_fail _

theorem collects_checkTable (each : ∀ v, Collects (check v)) (v : Json) :
    Collects (checkTable check v) := by
  cases v with
  | object fields =>
    show Collects (checkFieldValues check fields)
    induction fields with
    | nil => exact collects_pure []
    | cons entry rest ih => simp [checkFieldValues, each, ih]
  | _ => exact collects_fail .notObject

theorem problem?_checkList (check : Json → Checked α) (v : Json) :
    (checkList check v).problem? = v.items.findSome? fun item => (check item).problem? := by
  cases v with
  | array items => exact problem?_eachFrom check 0 items
  | _ => rfl

end Json

namespace Fields
variable {α : Type} {check : Json → Checked α}

theorem problem?_defaulted (name : Text) (default : α) (check : Json → Checked α)
    (fields : Fields) :
    (fields.defaulted name default check).problem? =
      (fields.get? name).bind fun v => (check v).problem? := by
  unfold defaulted
  cases fields.get? name with
  | none => rfl
  | some v => exact problem?_inside _ _

theorem problem?_listed {find? : Json → Option Problem}
    (each : ∀ v, (check v).problem? = v.items.findSome? find?) (name : Text) (default : α)
    (fields : Fields) :
    (fields.defaulted name default check).problem? =
      ((Json.object fields).listed name).findSome? find? := by
  rw [problem?_defaulted]
  show _ = (((fields.get? name).map Json.items).getD []).findSome? find?
  cases fields.get? name with
  | none => rfl
  | some v => exact each v

theorem collects_defaulted (each : ∀ v, Collects (check v)) (name : Text) (default : α)
    (fields : Fields) : Collects (fields.defaulted name default check) := by
  rw [← problem?_eq_none, problem?_defaulted]
  cases fields.get? name with
  | none => rfl
  | some v => exact problem?_eq_none.mpr (each v)

theorem collects_required (each : ∀ v, Collects (check v)) (name : Text) (fields : Fields) :
    Collects (fields.required name check) := by
  unfold required
  split
  · exact (collects_inside _).mpr (each _)
  · exact (collects_inside _).mpr (collects_fail _)

end Fields
end SoundLaw
