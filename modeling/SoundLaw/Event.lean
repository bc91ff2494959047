import SoundLaw.Rule.Basic
import SoundLaw.Json.Basic
import SoundLaw.Number.Reading

/-!
Events: what the library tells about its work while it does it.
-/
namespace SoundLaw

inductive Level where
  | debug | info | warning | error
deriving DecidableEq

def Level.text : Level → Text
  | .debug => "debug"
  | .info => "info"
  | .warning => "warning"
  | .error => "error"

inductive Source where
  | types | soundChange | phonetic | loaders | command
  | named (name : Text)
deriving DecidableEq

def Source.text : Source → Text
  | .types => "soundshift.core.types"
  | .soundChange => "soundshift.services.sca"
  | .phonetic => "soundshift.services.phonetic"
  | .loaders => "soundshift.storage.loaders"
  | .command => "soundshift.cli.sca"
  | .named name => name

/-- The greatest distance that a search admits. -/
inductive Threshold where
  | whole (n : Int)
  | real (x : Float)

namespace Threshold

def toFloat : Threshold → Float
  | .whole n => floatOfInt n
  | .real x => x

def json : Threshold → Json
  | .whole n => .int n
  | .real x => .float x

end Threshold

inductive Event where
  | fieldsIgnored (rule : Text) (mode : Mode) (ignored : List Text)
  | patternRefused (rule pattern reason : Text)
  | ruleApplied (rule ruleSet before after : Text)
  | searched (query : Text) (scanned matched : Nat) (threshold : Threshold)
  | saved (path : Text) (ruleSets : Nat)
  | loaded (path : Text) (ruleSets rules : Nat)
  | completed (source : Source) (function : Text)
  | failed (source : Source) (function error kind : Text)
  | noted (source : Source) (level : Level) (name : Text) (fields : Fields)

namespace Event

def source : Event → Source
  | .fieldsIgnored .. => .types
  | .patternRefused .. | .ruleApplied .. => .soundChange
  | .searched .. => .phonetic
  | .saved .. | .loaded .. => .loaders
  | .completed source _ | .failed source .. | .noted source .. => source

def level : Event → Level
  | .fieldsIgnored .. | .patternRefused .. => .warning
  | .ruleApplied .. | .searched .. | .loaded .. | .completed .. => .debug
  | .saved .. => .info
  | .failed .. => .error
  | .noted _ level _ _ => level

def name : Event → Text
  | .fieldsIgnored .. => "rule_fields_ignored"
  | .patternRefused .. => "sca_pattern_invalid"
  | .ruleApplied .. => "sca_rule_applied"
  | .searched .. => "fuzzy_search_completed"
  | .saved .. => "sca_config_saved"
  | .loaded .. => "sca_config_loaded"
  | .completed .. => "function_completed"
  | .failed .. => "function_failed"
  | .noted _ _ name _ => name

def fields : Event → Fields
  | .fieldsIgnored rule mode ignored =>
    [("rule_id", .text rule), ("mode", .text mode.text), ("ignored", .texts ignored)]
  | .patternRefused rule pattern reason =>
    [("rule_id", .text rule), ("pattern", .text pattern), ("reason", .text reason)]
  | .ruleApplied rule ruleSet before after =>
    [("rule_id", .text rule), ("ruleset_id", .text ruleSet), ("before", .text before),
     ("after", .text after)]
  | .searched query scanned matched threshold =>
    [("query", .text query), ("scanned", .int scanned), ("matched", .int matched),
     ("threshold", threshold.json)]
  | .saved path ruleSets => [("path", .text path), ("rule_sets", .int ruleSets)]
  | .loaded path ruleSets rules =>
    [("path", .text path), ("rule_sets", .int ruleSets), ("rules", .int rules)]
  | .completed _ function => [("function", .text function), ("success", .bool true)]
  | .failed _ function error kind =>
    [("function", .text function), ("error", .text error), ("error_type", .text kind),
     ("success", .bool false)]
  | .noted _ _ _ fields => fields

/-- Requests for the stack and for the error being handled, which a record takes out. -/
def requests : List Text := ["stack_info", "exc_info"]

/-- The fields in whose places a record has texts of its own, which are left out: the time, and
where it is asked for the stack or for the error. -/
def replaced (fields : Fields) : List Text :=
  let asked (request answer : Text) : List Text :=
    if (fields.get? request).any Json.truthy then [answer] else []
  "timestamp" :: (asked "stack_info" "stack" ++ asked "exc_info" "exception")

/-- The event as a record, with the language being worked on unless its id is empty. -/
def record (language : Option Text) (e : Event) : Fields :=
  let shown := e.fields.filter fun entry => entry.1 ∉ requests ++ replaced e.fields
  let withLanguage := match language with
    | some (c :: rest) => Fields.put "language_id" (.text (c :: rest)) shown
    | _ => shown
  Fields.put "logger" (.text e.source.text)
    (Fields.put "level" (.text e.level.text)
      (Fields.put "event" (.text e.name) withLanguage))

end Event
end SoundLaw
