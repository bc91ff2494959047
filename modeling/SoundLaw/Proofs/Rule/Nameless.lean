import SoundLaw.Proofs.Schema.Problems
import SoundLaw.Proofs.Rule.Unnamed

/-!
Records without an id in a configuration. One flat record whose id is absent or empty, in whatever
set it stands and whatever else is wrong, ends the check of the whole configuration with the problem
that it has alone; nothing else ends such a check before all issues are found.
-/
namespace SoundLaw
open Checked Json Fields

/-- A flat record whose id is absent or empty. -/
def Fields.Nameless (record : Fields) : Prop :=
  record.get? "mode" = none ∧
    (record.get? "rule_id" = none ∨ record.get? "rule_id" = some (.text []))

theorem Fields.raised?_iff {record : Fields} {p : Problem} :
    record.raised? = some p ↔ record.Nameless ∧ p = unnamed := by
  rw [raised?_eq_some, Nameless]
  cases moded : record.get? "mode" with
  | none => rw [routed_flat_error moded, shownId_eq_nil, and_iff_right rfl]
  | some v =>
    have routed : record.routed = pure record := by
      rw [Fields.routed, if_pos (by rw [holds, moded]; rfl)]
    simp [routed]

theorem findSome?_same {α β : Type} {find? : α → Option β} {b : β} {l : List α}
    (same : ∀ a b', find? a = some b' → b' = b) {b' : β} :
    l.findSome? find? = some b' ↔ (∃ a ∈ l, find? a = some b) ∧ b' = b := by
  constructor
  · intro found
    obtain ⟨a, member, first⟩ := List.exists_of_findSome?_eq_some found
    obtain rfl := same a b' first
    exact ⟨⟨a, member, first⟩, rfl⟩
  · rintro ⟨⟨a, member, found⟩, rfl⟩
    have found : (l.findSome? find?).isSome :=
      List.findSome?_isSome_iff.mpr ⟨a, member, found ▸ rfl⟩
    obtain ⟨first, here⟩ := Option.isSome_iff_exists.mp found
    obtain ⟨a, _, own⟩ := List.exists_of_findSome?_eq_some here
    rw [here, same a first own]

theorem Rule.collects_check (v : Json) : Collects (Rule.check v) := by
  cases v with
  | object fields => exact collects_checkFields fields
  | _ => exact collects_fail .notFields

namespace RuleSet

def unrouted? : Json → Option Problem
  | .object record => raised? record
  | _ => none

theorem unrouted?_eq_some {item : Json} {p : Problem} :
    unrouted? item = some p ↔
      (∃ record : Fields, item = .object record ∧ record.Nameless) ∧ p = unnamed := by
  cases item <;> simp [unrouted?, raised?_iff]

theorem route_cons (item : Json) (rest : List Json) :
    ∃ first, (route (item :: rest)).outcome =
      match unrouted? item with
      | some p => .error p
      | none => (route rest).outcome.map fun more => first :: more := by
  cases item with
  | object record =>
    rw [route, Journal.outcome_bind]
    cases routed : (Fields.routed record).outcome with
    | error p => exact ⟨.null, by rw [unrouted?, raised?_eq_some.mpr routed]; rfl⟩
    | ok fields =>
      rw [unrouted?, raised?_eq_none.mpr ⟨fields, routed⟩]
      exact ⟨.object fields, (Journal.outcome_bind _ _).trans rfl⟩
  | _ => exact ⟨_, (Journal.outcome_bind _ _).trans rfl⟩

theorem route_cases (items : List Json) :
    (∃ routed, (route items).outcome = .ok routed ∧ items.findSome? unrouted? = none) ∨
      ∃ p, (route items).outcome = .error p ∧ items.findSome? unrouted? = some p := by
  induction items with
  | nil => exact Or.inl ⟨[], rfl, rfl⟩
  | cons item rest ih =>
    obtain ⟨first, ends⟩ := route_cons item rest
    rw [List.findSome?_cons, ends]
    cases unrouted? item with
    | some p => exact Or.inr ⟨p, rfl, rfl⟩
    | none =>
      rcases ih with ⟨more, later, none⟩ | ⟨p, later, found⟩
      · exact Or.inl ⟨first :: more, by rw [later]; rfl, none⟩
      · exact Or.inr ⟨p, by rw [later]; rfl, found⟩

theorem problem?_checkRules (v : Json) :
    (checkRules v).problem? = v.items.findSome? unrouted? := by
  cases v with
  | array items =>
    have collects (routed : List Json) : Collects (eachFrom Rule.check 0 routed) :=
      collects_eachFrom (fun item _ => Rule.collects_check item) 0
    show _ = items.findSome? unrouted?
    rcases route_cases items with ⟨routed, ended, none⟩ | ⟨p, ended, first⟩
    · rw [none, problem?_eq_none]
      intro p
      rw [checkRules, Journal.outcome_bind, Journal.outcome_mapError, ended]
      exact collects routed p
    · rw [first, problem?_eq_some, checkRules, Journal.outcome_bind, Journal.outcome_mapError,
        ended]
      rfl
  | _ => rfl

theorem problem?_check (v : Json) :
    (RuleSet.check v).problem? = (v.listed "rules").findSome? unrouted? := by
  cases v with
  | object fields =>
    have id := collects_required collects_checkText "ruleset_id" fields
    have name := collects_defaulted collects_checkText "name" [] fields
    have order := collects_defaulted collects_checkWhole "order" 0 fields
    show (RuleSet.checkFields fields).problem? = _
    rw [checkFields, problem?_map, and3, problem?_both,
      problem?_eq_none.mpr (collects_both.mpr ⟨id, name⟩), problem?_both,
      problem?_eq_none.mpr order, problem?_listed problem?_checkRules]
    rfl
  | _ => rfl

end RuleSet

namespace Config

/-- Among the rules of a set of the configuration there is a record without an id. -/
def Nameless (v : Json) : Prop :=
  ∃ set ∈ v.listed "rule_sets", ∃ record : Fields,
    .object record ∈ set.listed "rules" ∧ record.Nameless

theorem problem?_check (v : Json) :
    (Config.check v).problem? =
      (v.listed "rule_sets").findSome? fun set =>
        (set.listed "rules").findSome? RuleSet.unrouted? := by
  cases v with
  | object fields =>
    have language := collects_defaulted collects_checkText "language_id" [] fields
    have sets (v : Json) := problem?_checkList RuleSet.check v
    simp only [RuleSet.problem?_check] at sets
    show (Config.checkFields fields).problem? = _
    rw [checkFields, problem?_map, problem?_both, problem?_eq_none.mpr language,
      problem?_listed sets]
    rfl
  | _ => rfl

/-- The check of a configuration ends in a problem exactly where it holds a record without an id. -/
theorem check_problem_iff {v : Json} {p : Problem} :
    (Config.check v).outcome = .error (.problem p) ↔ Nameless v ∧ p = unnamed := by
  have record {item : Json} {p : Problem} (found : RuleSet.unrouted? item = some p) : p = unnamed :=
    (RuleSet.unrouted?_eq_some.mp found).2
  have set {set : Json} {p : Problem}
      (found : (set.listed "rules").findSome? RuleSet.unrouted? = some p) : p = unnamed :=
    ((findSome?_same fun _ _ => record).mp found).2
  rw [← problem?_eq_some, problem?_check, findSome?_same fun _ _ => set]
  refine and_congr_left fun _ => exists_congr fun set => and_congr_right fun _ => ?_
  rw [findSome?_same fun _ _ => record, and_iff_left rfl]
  simp only [RuleSet.unrouted?_eq_some, and_true]
  constructor
  · rintro ⟨item, member, record, rfl, nameless⟩
    exact ⟨record, member, nameless⟩
  · rintro ⟨record, member, nameless⟩
    exact ⟨.object record, member, record, rfl, nameless⟩

end Config
end SoundLaw
