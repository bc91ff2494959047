import SoundLaw.Proofs.Schema.Check
import SoundLaw.Proofs.Journal
import Mathlib.Data.List.Forall2

/-!
Checks that collect. Such a check never ends in a problem: it passes or it reports issues. Checks
put together from collecting ones collect too, and what they report are the issues of their parts,
in order, each seen from the place of its part. So the places where something is missing can be
told from the parts.
-/
namespace SoundLaw

namespace Checked
variable {α β : Type} {a : Checked α} {b : Checked β}

def issues (c : Checked α) : List Issue :=
  match c.outcome with
  | .error (.issues l) => l
  | _ => []

def Collects (c : Checked α) : Prop := ∀ p, c.outcome ≠ .error (.problem p)

theorem Collects.passes_or (collects : Collects a) :
    (∃ value, a.outcome = .ok value) ∨ a.outcome = .error (.issues a.issues) := by
  unfold issues
  cases ended : a.outcome with
  | ok value => exact Or.inl ⟨value, rfl⟩
  | error refusal =>
    cases refusal with
    | issues l => exact Or.inr rfl
    | problem p => exact absurd ended (collects p)

theorem issues_ok {value : α} (ended : a.outcome = .ok value) : a.issues = [] := by
  rw [issues, ended]

theorem issues_error {l : List Issue} (ended : a.outcome = .error (.issues l)) : a.issues = l := by
  rw [issues, ended]

/-! ### Single checks -/

@[simp] theorem collects_pure (value : α) : Collects (pure value) := nofun

@[simp] theorem collects_fail (fault : Fault) : Collects (fail fault : Checked α) := nofun

@[simp] theorem issues_fail (fault : Fault) : issues (fail fault : Checked α) = [⟨[], fault⟩] := rfl

@[simp] theorem collects_inside (place : Place) : Collects (inside place a) ↔ Collects a := by
  unfold Collects
  rw [inside, Journal.outcome_mapError]
  cases a.outcome with
  | ok value => simp [Except.mapError]
  | error refusal => cases refusal <;> simp [Except.mapError, Refusal.inside]

theorem issues_inside (place : Place) : issues (inside place a) = a.issues.map (.inside place) := by
  unfold issues
  rw [inside, Journal.outcome_mapError]
  cases a.outcome with
  | ok value => rfl
  | error refusal => cases refusal <;> rfl

theorem inside_eq_ok {place : Place} {value : α} :
    (inside place a).outcome = .ok value ↔ a.outcome = .ok value := by
  rw [inside, Journal.outcome_mapError]
  cases a.outcome <;> simp [Except.mapError]

@[simp] theorem collects_map (f : α → β) : Collects (f <$> a) ↔ Collects a := by
  unfold Collects
  rw [Journal.outcome_map]
  cases a.outcome <;> simp [Except.map]

@[simp] theorem issues_map (f : α → β) : issues (f <$> a) = a.issues := by
  unfold issues
  rw [Journal.outcome_map]
  cases a.outcome with
  | ok value => rfl
  | error refusal => cases refusal <;> rfl

/-! ### Two checks together -/

theorem outcome_both (a : Checked α) (b : Checked β) :
    (both a b).outcome = bothOutcomes a.outcome b.outcome := by
  unfold both
  split
  · rename_i p problem
    rw [problem]
    cases b.outcome <;> rfl
  · rfl

theorem both_eq_ok {x : α} {y : β} :
    (both a b).outcome = .ok (x, y) ↔ a.outcome = .ok x ∧ b.outcome = .ok y := by
  rw [outcome_both]
  rcases a.outcome with (_ | _) | _ <;> rcases b.outcome with (_ | _) | _ <;> simp [bothOutcomes]

theorem both_ok {x : α} (passes : a.outcome = .ok x) :
    (both a b).outcome = b.outcome.map fun y => (x, y) := by
  rw [outcome_both, passes]
  cases b.outcome <;> rfl

@[simp] theorem collects_both : Collects (both a b) ↔ Collects a ∧ Collects b := by
  unfold Collects
  rw [outcome_both]
  rcases a.outcome with (_ | _) | _ <;> rcases b.outcome with (_ | _) | _ <;> simp [bothOutcomes]

theorem issues_both (first : Collects a) (second : Collects b) :
    issues (both a b) = a.issues ++ b.issues := by
  have together := outcome_both a b
  rcases first.passes_or with ⟨x, ended⟩ | ended
  · rcases second.passes_or with ⟨y, later⟩ | later
    · rw [ended, later] at together
      rw [issues_ok together, issues_ok ended, issues_ok later, List.append_nil]
    · rw [ended, later] at together
      rw [issues_error together, issues_ok ended, List.nil_append]
  · rcases second.passes_or with ⟨y, later⟩ | later
    · rw [ended, later] at together
      rw [issues_error together, issues_ok later, List.append_nil]
    · rw [ended, later] at together
      rw [issues_error together]

/-! ### The items of a list -/

variable {check : Json → Checked α}

theorem collects_eachFrom {items : List Json} (each : ∀ item ∈ items, Collects (check item))
    (i : Nat) : Collects (eachFrom check i items) := by
  induction items generalizing i with
  | nil => exact collects_pure []
  | cons item rest ih =>
    rw [List.forall_mem_cons] at each
    simp [eachFrom, each.1, ih each.2]

theorem issues_eachFrom {items : List Json} (each : ∀ item ∈ items, Collects (check item))
    (i : Nat) :
    issues (eachFrom check i items) =
      (items.zipIdx i).flatMap fun item =>
        (issues (check item.1)).map (Issue.inside (.item item.2)) := by
  induction items generalizing i with
  | nil => rfl
  | cons item rest ih =>
    rw [List.forall_mem_cons] at each
    rw [eachFrom, issues_map, issues_both ((collects_inside _).mpr each.1)
      (collects_eachFrom each.2 (i + 1)), issues_inside, ih each.2, List.zipIdx_cons,
      List.flatMap_cons]

theorem eachFrom_eq_ok {items : List Json} {l : List α} {i : Nat} :
    (eachFrom check i items).outcome = .ok l ↔
      List.Forall₂ (fun item value => (check item).outcome = .ok value) items l := by
  induction items generalizing i l with
  | nil =>
    rw [List.forall₂_nil_left_iff]
    exact ⟨fun ended => (Except.ok.inj ended).symm, fun none => congrArg Except.ok none.symm⟩
  | cons item rest ih =>
    rw [List.forall₂_cons_left_iff, eachFrom, Journal.outcome_map]
    constructor
    · intro ended
      cases parts : (both (inside (.item i) (check item))
          (eachFrom check (i + 1) rest)).outcome with
      | error refusal => rw [parts] at ended; cases ended
      | ok values =>
        rw [parts] at ended
        cases ended
        obtain ⟨first, others⟩ := both_eq_ok.mp parts
        exact ⟨_, _, inside_eq_ok.mp first, ih.mp others, rfl⟩
    · rintro ⟨value, values, first, others, rfl⟩
      rw [both_eq_ok.mpr ⟨inside_eq_ok.mpr first, ih.mpr others⟩]
      rfl

/-! ### What is missing -/

/-- A check that collects, and the places where it reports that something is missing. -/
structure Lacks (c : Checked α) (places : List (List Place)) : Prop where
  collects : Collects c
  missing : (c.issues.filter fun issue => issue.fault = .missing).map Issue.path = places

theorem lacks_pure (value : α) : Lacks (pure value) [] := ⟨collects_pure value, rfl⟩

theorem lacks_fail {fault : Fault} (other : fault ≠ .missing) :
    Lacks (fail fault : Checked α) [] := ⟨collects_fail fault, by simp [other]⟩

theorem Lacks.map {places : List (List Place)} (f : α → β) (lacks : Lacks a places) :
    Lacks (f <$> a) places where
  collects := (collects_map f).mpr lacks.collects
  missing := by rw [issues_map, lacks.missing]

theorem Lacks.inside {places : List (List Place)} (place : Place) (lacks : Lacks a places) :
    Lacks (Checked.inside place a) (places.map (place :: ·)) where
  collects := (collects_inside place).mpr lacks.collects
  missing := by
    rw [issues_inside, List.filter_map, ← lacks.missing, List.map_map, List.map_map]
    rfl

theorem Lacks.both {places more : List (List Place)} (first : Lacks a places)
    (second : Lacks b more) : Lacks (Checked.both a b) (places ++ more) where
  collects := collects_both.mpr ⟨first.collects, second.collects⟩
  missing := by
    rw [issues_both first.collects second.collects, List.filter_append, List.map_append,
      first.missing, second.missing]

theorem Lacks.bind {next : α → Checked β} (first : Lacks a [])
    (later : ∀ value, Lacks (next value) []) : Lacks (a >>= next) [] := by
  rcases first.collects.passes_or with ⟨value, passes⟩ | refused
  · have same : (a >>= next).outcome = (next value).outcome := by
      rw [Journal.outcome_bind, passes]
      rfl
    refine ⟨fun p => same ▸ (later value).collects p, ?_⟩
    rw [issues, same]
    exact (later value).missing
  · have same : (a >>= next).outcome = .error (.issues a.issues) := by
      rw [Journal.outcome_bind, refused]
      rfl
    refine ⟨fun p => same ▸ nofun, ?_⟩
    rw [issues_error same]
    exact first.missing

theorem Lacks.mem_iff {places : List (List Place)} (lacks : Lacks a places) {path : List Place} :
    (∃ l, a.outcome = .error (.issues l) ∧ ⟨path, .missing⟩ ∈ l) ↔ path ∈ places := by
  rw [← lacks.missing, List.mem_map]
  constructor
  · rintro ⟨l, refused, member⟩
    rw [← issues_error refused] at member
    exact ⟨_, List.mem_filter.mpr ⟨member, by simp⟩, rfl⟩
  · rintro ⟨⟨path, fault⟩, listed, rfl⟩
    obtain ⟨member, missing⟩ := List.mem_filter.mp listed
    obtain rfl := of_decide_eq_true missing
    rcases lacks.collects.passes_or with ⟨value, passes⟩ | refused
    · rw [issues_ok passes] at member
      cases member
    · exact ⟨a.issues, refused, member⟩

theorem lacks_eachFrom (each : ∀ v, Lacks (check v) []) (items : List Json) (i : Nat) :
    Lacks (eachFrom check i items) [] := by
  induction items generalizing i with
  | nil => exact lacks_pure []
  | cons item rest ih => exact (((each item).inside (.item i)).both (ih (i + 1))).map _

end Checked

/-! ### Values and fields -/

open Checked

namespace Json
variable {α : Type}

theorem lacks_checkText (v : Json) : Lacks (checkText v) [] := by
  cases v with
  | text t => exact lacks_pure t
  | _ => exact lacks_fail nofun

theorem lacks_checkTexts (v : Json) : Lacks (checkTexts v) [] := by
  cases v with
  | array items => exact lacks_eachFrom lacks_checkText items 0
  | _ => exact lacks_fail nofun

theorem lacks_checkOptional {check : Json → Checked α} (lacks : ∀ v, Lacks (check v) [])
    (v : Json) : Lacks (checkOptional check v) [] := by
  cases v with
  | null => exact lacks_pure none
  | _ => exact (lacks _).map some

theorem lacks_checkRecord {check : Fields → Checked α} (lacks : ∀ fields, Lacks (check fields) [])
    (name : Text) (v : Json) : Lacks (checkRecord name check v) [] := by
  cases v with
  | object fields => exact lacks fields
  | _ => exact lacks_fail nofun

end Json

namespace Fields
variable {α : Type} {check : Json → Checked α}

theorem lacks_defaulted (name : Text) (default : α) (fields : Fields)
    (lacks : ∀ v, Lacks (check v) []) : Lacks (fields.defaulted name default check) [] := by
  unfold defaulted
  split
  · exact (lacks _).inside (.field name)
  · exact lacks_pure default

theorem lacks_required (name : Text) (fields : Fields) (lacks : ∀ v, Lacks (check v) []) :
    Lacks (fields.required name check)
      (if fields.get? name = none then [[.field name]] else []) := by
  unfold required
  cases fields.get? name with
  | none => exact ⟨nofun, rfl⟩
  | some v => exact (lacks v).inside (.field name)

theorem lacks_only (known : List Text) (fields : Fields) : Lacks (fields.only known) [] := by
  induction fields with
  | nil => exact lacks_pure ()
  | cons entry rest ih =>
    have unexpected : Lacks (fail .unexpected : Checked Unit) [] := lacks_fail nofun
    unfold only
    split
    · exact ((lacks_pure ()).both ih).map _
    · exact ((unexpected.inside (.field entry.1)).both ih).map _

end Fields
end SoundLaw
