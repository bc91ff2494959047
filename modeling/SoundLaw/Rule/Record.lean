import SoundLaw.Journal

/-!
Records of rules. A record either names its mode or is flat: then a flag decides between the two
kinds of rules, fields of the other kind are dropped, and a flat record without an id is refused.
-/
namespace SoundLaw

namespace Mode

def fields : Mode → List Text
  | .character => ["target", "replacement", "context_before", "context_after"]
  | .feature =>
    ["target_features", "replacement_features", "context_before_features",
     "context_after_features"]

def other : Mode → Mode
  | .character => .feature
  | .feature => .character

end Mode

def sharedFields : List Text := ["rule_id", "description", "exceptions"]

namespace Fields

def shownId (record : Fields) : Text := ((record.get? "rule_id").map Json.shown).getD []

def flag (name : Text) (record : Fields) : Bool := ((record.get? name).map Json.truthy).getD false

def flatMode (record : Fields) : Mode := if record.flag "feature_mode" then .feature else .character

/-- The fields of the other mode that a flat record fills, in order. -/
def ignoredFields (record : Fields) : List Text :=
  record.flatMode.other.fields.filter fun name => record.flag name

def kept (names : List Text) (record : Fields) : Fields :=
  names.filterMap fun name =>
    match record.get? name with
    | none | some .null => none
    | some value => some (name, value)

/-- A record that names its mode. A flat record becomes one; its fields of the other mode are
told of and dropped. -/
def routed (record : Fields) : Journal Problem Fields :=
  if record.holds "mode" then pure record
  else if record.shownId.isEmpty then
    Journal.raise (.invalidRule "<unnamed>" "rule_id is required")
  else
    let mode := record.flatMode
    let ignored := record.ignoredFields
    let told : List Event :=
      if ignored.isEmpty then [] else [.fieldsIgnored record.shownId mode ignored]
    ⟨told, .ok (record.kept (sharedFields ++ mode.fields) ++ ([("mode", .text mode.text)] : Fields))⟩

end Fields
end SoundLaw
