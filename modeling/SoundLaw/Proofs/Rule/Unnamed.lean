import SoundLaw.Proofs.Rule.Record
import SoundLaw.Proofs.Rule.Records
import SoundLaw.Proofs.Text.Digits

/-!
Flat records without an id. A record is refused as unnamed when the words that show its id are
empty, and a null is shown by a word. So a record whose id is null is routed like a named one, loses
its id on the way, and is the only kind of flat record that reports a missing field.
-/
namespace SoundLaw
open Checked Json Fields

/-! ### Words that show a value -/

theorem layOut_ne_nil (digits : Text) (point : Int) : layOut digits point ≠ [] := by
  unfold layOut
  split
  · simp
  · split
    · dsimp only
      split <;> simp
    · simp

theorem numeral_ne_nil (x : Float) : numeral x ≠ [] := by
  unfold numeral
  split
  · decide
  · simp
  · dsimp only
    split <;> simp [layOut_ne_nil]

theorem Json.shown_eq_nil {v : Json} : v.shown = [] ↔ v = .text [] := by
  cases v with
  | bool b => cases b <;> simp [shown, spelled]
  | int n => cases n <;> simp [shown, spelled, Text.signedDecimal, Text.decimal_ne_nil]
  | float x => simp [shown, spelled, numeral_ne_nil]
  | _ => simp [shown, spelled]

theorem Fields.shownId_eq_nil {record : Fields} :
    record.shownId = [] ↔
      record.get? "rule_id" = none ∨ record.get? "rule_id" = some (.text []) := by
  unfold shownId
  cases record.get? "rule_id" <;> simp [shown_eq_nil]

/-! ### Flat records -/

namespace Fields
variable {record : Fields}

/-- A record without an id: the field is absent, null or an empty text. -/
def Unnamed (record : Fields) : Prop :=
  record.get? "rule_id" = none ∨ record.get? "rule_id" = some .null ∨
    record.get? "rule_id" = some (.text [])

def unnamed : Problem := .invalidRule "<unnamed>" "rule_id is required"

theorem routed_flat (flat : record.get? "mode" = none) :
    record.routed.outcome =
      if record.shownId = [] then .error unnamed else .ok (record.routedTo record.flatMode) := by
  have bare : record.holds "mode" = false := by
    rw [holds, flat]
    rfl
  rw [routed, bare, if_neg Bool.false_ne_true]
  by_cases blank : record.shownId = []
  · rw [if_pos (List.isEmpty_iff.mpr blank), if_pos blank]
    rfl
  · rw [if_neg (mt List.isEmpty_iff.mp blank), if_neg blank]
    rfl

theorem routed_flat_error (flat : record.get? "mode" = none) {problem : Problem} :
    record.routed.outcome = .error problem ↔ record.shownId = [] ∧ problem = unnamed := by
  rw [routed_flat flat]
  by_cases blank : record.shownId = []
  · rw [if_pos blank]
    exact ⟨fun same => ⟨blank, (Except.error.inj same).symm⟩, fun h => congrArg _ h.2.symm⟩
  · rw [if_neg blank]
    exact ⟨nofun, fun h => absurd h.1 blank⟩

theorem routedTo_id (mode : Mode) (record : Fields) :
    (record.routedTo mode).get? "rule_id" =
      (record.get? "rule_id").filter fun v => !v.isNull := by
  have listed : "rule_id".toList ∈ sharedFields ++ mode.fields := List.mem_append_left _ (by decide)
  rw [routedTo, get?_append, get?_kept listed]
  cases (record.get? "rule_id").filter fun v => !v.isNull <;> rfl

end Fields

namespace Rule
variable {record : Fields}

/-- Only a null makes a flat record report a missing field, and that field is its id. -/
theorem parse_flat_missing (flat : record.get? "mode" = none) {path : List Place} :
    (∃ l, (Rule.parse record).outcome = .error (.issues l) ∧ ⟨path, .missing⟩ ∈ l) ↔
      record.get? "rule_id" = some .null ∧
        path = [.field record.flatMode.text, .field "rule_id"] := by
  by_cases blank : record.shownId = []
  · have refused := parse_raised ((routed_flat_error flat).mpr ⟨blank, rfl⟩)
    rw [refused]
    rcases shownId_eq_nil.mp blank with absent | empty
    · simp [-String.reduceToList, absent]
    · simp [-String.reduceToList, empty]
  · have routed := (routed_flat flat).trans (if_neg blank)
    have lacks := lacks_checkFields (routedTo_mode record.flatMode record)
    rw [parse_routed routed, lacks.mem_iff, missed, routedTo_id]
    cases found : record.get? "rule_id" with
    | none => exact absurd (shownId_eq_nil.mpr (Or.inl found)) blank
    | some v => cases v <;> simp [-String.reduceToList, Json.isNull]

end Rule

/-- A flat record is refused as unnamed exactly when its id is absent or empty, and reports a
missing field exactly when its id is null. So the records without an id are those that are refused
as unnamed, but for the ones whose id is null. -/
theorem flat_refused_iff (record : Fields) (flat : record.get? "mode" = none) :
    (∀ problem, record.routed.outcome = .error problem ↔
      (record.get? "rule_id" = none ∨ record.get? "rule_id" = some (.text [])) ∧
        problem = unnamed) ∧
    (∀ problem, (Rule.parse record).outcome = .error (.problem problem) ↔
      (record.get? "rule_id" = none ∨ record.get? "rule_id" = some (.text [])) ∧
        problem = unnamed) ∧
    (∀ path, (∃ l, (Rule.parse record).outcome = .error (.issues l) ∧ ⟨path, .missing⟩ ∈ l) ↔
      record.get? "rule_id" = some .null ∧
        path = [.field record.flatMode.text, .field "rule_id"]) ∧
    (((∃ problem, record.routed.outcome = .error problem) ↔ record.Unnamed) ↔
      record.get? "rule_id" ≠ some .null) := by
  have routed (problem : Problem) := @routed_flat_error record flat problem
  simp only [-String.reduceToList, shownId_eq_nil] at routed
  refine ⟨routed, fun problem => Rule.parse_problem_iff.trans (routed problem),
    fun path => Rule.parse_flat_missing flat, ?_⟩
  simp only [-String.reduceToList, routed, Unnamed, exists_and_left, exists_eq, and_true]
  constructor
  · intro same null
    simp [-String.reduceToList, null] at same
  · intro other
    simp [-String.reduceToList, other]

theorem flat_refused_iff_null :
    let null : Fields := [("rule_id", .null), ("target", .text "p")]
    null.get? "mode" = none ∧ null.Unnamed ∧
      (∃ l, (Rule.parse null).outcome = .error (.issues l) ∧
        ⟨[.field "character", .field "rule_id"], .missing⟩ ∈ l) ∧
      ¬ ∃ problem, null.routed.outcome = .error problem := by
  intro null
  obtain ⟨_, _, missing, right⟩ := flat_refused_iff null rfl
  refine ⟨rfl, Or.inr (Or.inl rfl), (missing _).mpr ⟨rfl, rfl⟩, fun raises => ?_⟩
  exact right.mp ⟨fun _ => Or.inr (Or.inl rfl), fun _ => raises⟩ rfl

/-- A null is no id, and yet the record is not refused as unnamed. -/
theorem null_id_routed :
    ¬ ∀ record : Fields, record.get? "mode" = none →
      ((∃ problem, record.routed.outcome = .error problem) ↔ record.Unnamed) := by
  intro refused
  obtain ⟨problem, raises⟩ := (refused [("rule_id", .null)] rfl).mpr (Or.inr (Or.inl rfl))
  cases raises

end SoundLaw
