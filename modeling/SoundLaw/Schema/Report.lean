import SoundLaw.Schema.Issue
import SoundLaw.Sorting

/-!
Issues as JSON values, in the order of their places.
-/
namespace SoundLaw

namespace Place

def text : Place → Text
  | .field name => name
  | .item index => Text.decimal index

def json : Place → Json
  | .field name => .text name
  | .item index => .int index

end Place

namespace Issue

def address (i : Issue) : Text := List.intercalate ['/'] (i.path.map Place.text)

/-- Issues are ordered by place, those of one place by kind. -/
def le (a b : Issue) : Bool :=
  if a.address = b.address then Text.le a.fault.kind b.fault.kind else Text.le a.address b.address

def json (i : Issue) : Json :=
  .object
    [("type", .text i.fault.kind), ("loc", .array (i.path.map Place.json)),
     ("msg", .text i.fault.message)]

def report (l : List Issue) : Json := .array ((sortBy le l).map json)

end Issue
end SoundLaw
