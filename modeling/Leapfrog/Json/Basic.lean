/-!
# Documents

The values of a JSON document, kept apart where a report tells them apart: a whole number is not
the double of the same value, and a record is a list of named members in the order they are
written.
-/

namespace Leapfrog

/-- A document. -/
inductive Json where
  | null
  | bool (value : Bool)
  | whole (value : Int)
  | real (value : Float)
  | text (value : String)
  | list (items : List Json)
  | record (members : List (String × Json))

namespace Json

/-- The value of the first member with a given name. -/
def member? : Json → String → Option Json
  | .record members, name => members.lookup name
  | _, _ => none

/-- Whether a document counts as a yes: null, false, zero and whatever is empty do not. -/
def holds : Json → Bool
  | .null => false
  | .bool value => value
  | .whole value => value != 0
  | .real value => value != 0
  | .text value => !value.isEmpty
  | .list items => !items.isEmpty
  | .record members => !members.isEmpty

/-- A list of texts. -/
def texts (values : List String) : Json := .list (values.map .text)

end Json

end Leapfrog
