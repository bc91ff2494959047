import SoundLaw.Proofs.Rule.Schema

/-!
Flat records of rules. A flat record that presents a rule is read as that rule, whatever else it
holds; the fields of the other mode that it fills are told of, and nothing else is.
-/
namespace SoundLaw
open Json

namespace Fields
variable {α : Type} {name : Text} {names : List Text} {record rest : Fields}

/-- A field that spells a value, or is absent or null where the value is the default one. -/
def Presents (Spells : α → Json → Prop) (name : Text) (default a : α) (record : Fields) : Prop :=
  (∃ v, record.get? name = some v ∧ Spells a v) ∨
    ((record.get? name = none ∨ record.get? name = some .null) ∧ a = default)

/-! ### The fields that are kept -/

theorem kept_cons (first : Text) (names : List Text) (record : Fields) :
    record.kept (first :: names) =
      (((record.get? first).filter fun v => !v.isNull).map fun v => (first, v)).toList ++
        record.kept names := by
  unfold kept
  rw [List.filterMap_cons]
  cases record.get? first with
  | none => rfl
  | some v => cases v <;> rfl

theorem mem_kept {entry : Text × Json} (member : entry ∈ record.kept names) : entry.1 ∈ names := by
  obtain ⟨name, listed, found⟩ := List.mem_filterMap.mp member
  split at found
  · cases found
  · cases found
  · cases found
    exact listed

theorem get?_kept_of_not_mem (unlisted : name ∉ names) : (record.kept names).get? name = none := by
  induction names with
  | nil => rfl
  | cons first names ih =>
    rw [List.mem_cons, not_or] at unlisted
    rw [kept_cons, get?_append, ih unlisted.2]
    cases (record.get? first).filter fun v => !v.isNull <;> simp [get?, Ne.symm unlisted.1]

theorem get?_kept (listed : name ∈ names) :
    (record.kept names).get? name = (record.get? name).filter fun v => !v.isNull := by
  induction names with
  | nil => simp at listed
  | cons first names ih =>
    rw [kept_cons, get?_append]
    by_cases same : first = name
    · subst same
      cases found : (record.get? first).filter fun v => !v.isNull with
      | some v => simp [get?]
      | none =>
        -- The name may stand again among those to come, but it is not kept there either.
        by_cases again : first ∈ names
        · simp [get?, ih again, found]
        · simp [get?, get?_kept_of_not_mem again]
    · rw [ih ((List.mem_cons.mp listed).resolve_left (Ne.symm same))]
      cases (record.get? first).filter fun v => !v.isNull <;> simp [get?, same]

theorem kept_gives {Spells : α → Json → Prop} {default a : α} (listed : name ∈ names)
    (apart : rest.get? name = none) (null : Spells a .null → a = default)
    (presented : record.Presents Spells name default a) :
    (record.kept names ++ rest).Gives Spells name default a := by
  unfold Gives
  rw [get?_append, get?_kept listed, apart, Option.or_none]
  rcases presented with ⟨v, found, spelled⟩ | ⟨absent | found, same⟩
  · cases v with
    | null => exact Or.inr ⟨by rw [found]; rfl, null spelled⟩
    | _ => exact Or.inl ⟨_, by rw [found]; rfl, spelled⟩
  · exact Or.inr ⟨by rw [absent]; rfl, same⟩
  · exact Or.inr ⟨by rw [found]; rfl, same⟩

end Fields

theorem optionally_null {α : Type} {Spells : α → Json → Prop} {a : Option α}
    (spelled : Optionally Spells a .null) : a = none := by
  cases a with
  | none => rfl
  | some a => exact absurd rfl spelled.1

/-! ### Records that present a rule -/

/-- A flat record of a character rule. -/
structure CharacterRule.PresentedBy (r : CharacterRule) (record : Fields) : Prop where
  unmoded : record.get? "mode" = none
  flag : ∀ v, record.get? "feature_mode" = some v → v.truthy = false
  id : record.get? "rule_id" = some (.text r.id)
  description : record.Presents IsText "description" [] r.description
  target : record.Presents IsText "target" [] r.target
  replacement : record.Presents IsText "replacement" [] r.replacement
  before : record.Presents IsText "context_before" [] r.before
  after : record.Presents IsText "context_after" [] r.after
  exceptions : record.Presents IsTexts "exceptions" [] r.exceptions

structure FeatureRule.PresentedBy (r : FeatureRule) (record : Fields) : Prop where
  unmoded : record.get? "mode" = none
  flag : ∃ v, record.get? "feature_mode" = some v ∧ v.truthy = true
  id : record.get? "rule_id" = some (.text r.id)
  description : record.Presents IsText "description" [] r.description
  target : record.Presents (Optionally Expression.SpelledBy) "target_features" none r.target
  replacement :
    record.Presents (Optionally Replacement.SpelledBy) "replacement_features" none r.replacement
  before : record.Presents (Optionally Expression.SpelledBy) "context_before_features" none r.before
  after : record.Presents (Optionally Expression.SpelledBy) "context_after_features" none r.after
  exceptions : record.Presents IsTexts "exceptions" [] r.exceptions

def Fields.routedTo (mode : Mode) (record : Fields) : Fields :=
  record.kept (sharedFields ++ mode.fields) ++ ([("mode", .text mode.text)] : Fields)

theorem Fields.routedTo_mode (mode : Mode) (record : Fields) :
    (record.routedTo mode).get? "mode" = some (.text mode.text) := by
  have unlisted : "mode".toList ∉ sharedFields ++ mode.fields := by cases mode <;> decide
  rw [routedTo, get?_append, get?_kept_of_not_mem unlisted]
  rfl

theorem Fields.routedTo_known (mode : Mode) (record : Fields) :
    ∀ entry ∈ record.routedTo mode, entry.1 ∈ "mode".toList :: sharedFields ++ mode.fields := by
  intro entry member
  rcases List.mem_append.mp member with kept | last
  · exact List.mem_cons_of_mem _ (mem_kept kept)
  · rw [List.mem_singleton.mp last]
    exact List.mem_cons_self

theorem CharacterRule.PresentedBy.spelledBy {r : CharacterRule} {record : Fields}
    (flat : r.PresentedBy record) : r.SpelledBy (record.routedTo .character) where
  mode := Fields.routedTo_mode .character record
  id := by
    rw [Fields.routedTo, Fields.get?_append, Fields.get?_kept (by decide), flat.id]
    rfl
  description := Fields.kept_gives (by decide) rfl nofun flat.description
  target := Fields.kept_gives (by decide) rfl nofun flat.target
  replacement := Fields.kept_gives (by decide) rfl nofun flat.replacement
  before := Fields.kept_gives (by decide) rfl nofun flat.before
  after := Fields.kept_gives (by decide) rfl nofun flat.after
  exceptions := Fields.kept_gives (by decide) rfl nofun flat.exceptions
  known := Fields.routedTo_known .character record

theorem FeatureRule.PresentedBy.spelledBy {r : FeatureRule} {record : Fields}
    (flat : r.PresentedBy record) : r.SpelledBy (record.routedTo .feature) where
  mode := Fields.routedTo_mode .feature record
  id := by
    rw [Fields.routedTo, Fields.get?_append, Fields.get?_kept (by decide), flat.id]
    rfl
  description := Fields.kept_gives (by decide) rfl nofun flat.description
  target := Fields.kept_gives (by decide) rfl optionally_null flat.target
  replacement := Fields.kept_gives (by decide) rfl optionally_null flat.replacement
  before := Fields.kept_gives (by decide) rfl optionally_null flat.before
  after := Fields.kept_gives (by decide) rfl optionally_null flat.after
  exceptions := Fields.kept_gives (by decide) rfl nofun flat.exceptions
  known := Fields.routedTo_known .feature record

namespace Rule
variable {rule : Rule} {record : Fields}

def PresentedBy : Rule → Fields → Prop
  | .character r => r.PresentedBy
  | .feature r => r.PresentedBy

theorem PresentedBy.unmoded (flat : rule.PresentedBy record) : record.get? "mode" = none := by
  cases rule with
  | character r => exact CharacterRule.PresentedBy.unmoded flat
  | feature r => exact FeatureRule.PresentedBy.unmoded flat

theorem PresentedBy.shownId (flat : rule.PresentedBy record) : record.shownId = rule.id := by
  cases rule with
  | character r => rw [Fields.shownId, CharacterRule.PresentedBy.id flat]; rfl
  | feature r => rw [Fields.shownId, FeatureRule.PresentedBy.id flat]; rfl

theorem PresentedBy.flatMode (flat : rule.PresentedBy record) : record.flatMode = rule.mode := by
  unfold Fields.flatMode Fields.flag
  cases rule with
  | character r =>
    cases found : record.get? "feature_mode" with
    | none => rfl
    | some v => simp [CharacterRule.PresentedBy.flag flat v found, mode]
  | feature r =>
    obtain ⟨v, found, raised⟩ := FeatureRule.PresentedBy.flag flat
    simp only [found, Option.map_some, Option.getD_some, raised, ↓reduceIte, mode]

theorem PresentedBy.spelledBy (flat : rule.PresentedBy record) :
    rule.SpelledBy (record.routedTo rule.mode) := by
  cases rule with
  | character r => exact CharacterRule.PresentedBy.spelledBy flat
  | feature r => exact FeatureRule.PresentedBy.spelledBy flat

theorem PresentedBy.routed (flat : rule.PresentedBy record) (named : rule.id ≠ []) :
    record.routed = ⟨if record.ignoredFields.isEmpty then []
      else [.fieldsIgnored rule.id rule.mode record.ignoredFields],
      .ok (record.routedTo rule.mode)⟩ := by
  have present : record.holds "mode" = false := by
    rw [Fields.holds, flat.unmoded]
    rfl
  have shown : record.shownId.isEmpty = false := by
    rw [flat.shownId]
    exact List.isEmpty_eq_false_iff.mpr named
  unfold Fields.routed
  rw [present, shown, flat.shownId, flat.flatMode]
  rfl

/-- A flat record that presents a rule is read as that rule. Only fields of the other mode are told
of, namely those that the record fills, in their order. -/
theorem parse_presented (rule : Rule) (record : Fields) (named : rule.id ≠ [])
    (flat : rule.PresentedBy record) :
    let surplus := rule.mode.other.fields.filter fun name => (record.get? name).any Json.truthy
    (Rule.parse record).outcome = .ok rule ∧
      (Rule.parse record).events =
        if surplus = [] then [] else [.fieldsIgnored rule.id rule.mode surplus] := by
  intro surplus
  have ignored : record.ignoredFields = surplus := by
    unfold Fields.ignoredFields
    rw [flat.flatMode]
    refine List.filter_congr fun name _ => ?_
    cases found : record.get? name <;> simp [Fields.flag, found]
  have parsed : Rule.parse record = ⟨if surplus.isEmpty then []
      else [.fieldsIgnored rule.id rule.mode surplus], .ok rule⟩ := by
    unfold Rule.parse
    rw [flat.routed named, ignored, Journal.bind_ok (a := record.routedTo rule.mode) rfl,
      checkFields_pure flat.spelledBy]
    simp [Journal.mapError]
  rw [parsed]
  exact ⟨rfl, by simp [List.isEmpty_iff]⟩

def flatVoicing : Fields :=
  [("feature_mode", .int 1), ("rule_id", .text "f"), ("target", .text "p"),
    ("target_features", .object [("positive", .texts ["stop"])]), ("exceptions", .null),
    ("context_before", .text []), ("note", .bool true)]

theorem parse_presented_voicing :
    (Rule.parse flatVoicing).outcome =
        .ok (.feature ⟨"f", [], some ⟨["stop"], [], by decide⟩, none, none, none, []⟩) ∧
      (Rule.parse flatVoicing).events = [.fieldsIgnored "f" .feature ["target"]] := by
  refine parse_presented (.feature ⟨"f", [], some ⟨["stop"], [], by decide⟩, none, none, none, []⟩)
    flatVoicing (by decide) ?_
  exact
    { unmoded := rfl
      flag := ⟨_, rfl, rfl⟩
      id := rfl
      description := Or.inr ⟨Or.inl rfl, rfl⟩
      target := Or.inl ⟨_, rfl, nofun, _, rfl, Or.inl ⟨_, rfl, rfl⟩, Or.inr ⟨rfl, rfl⟩⟩
      replacement := Or.inr ⟨Or.inl rfl, rfl⟩
      before := Or.inr ⟨Or.inl rfl, rfl⟩
      after := Or.inr ⟨Or.inl rfl, rfl⟩
      exceptions := Or.inr ⟨Or.inr rfl, rfl⟩ }

end Rule
end SoundLaw
