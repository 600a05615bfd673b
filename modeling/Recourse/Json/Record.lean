import Recourse.Json.Basic

/-!
# Reading the fields of an object

Objects that stand for a record are read field by field.  The order of the
fields does not matter and unknown fields are ignored, but a field of the
record must not be given twice, and every name must be a text.
-/

namespace Recourse

namespace Json

/-- The fields of an object by name; none if a name is not a text. -/
def named? (fields : List (List Piece × Json)) : Option (List (String × Json)) :=
  fields.mapM fun (name, value) => (Piece.text? name).map (·, value)

/-- The value read from the field called `name`, or `absent` if there is no
such field.  A field given twice is refused. -/
def field? (fields : List (String × Json)) (name : String) (read : Json → Option α)
    (absent : Option α) : Option α :=
  match fields.filter (·.1 == name) with
  | [] => absent
  | [(_, value)] => read value
  | _ => none

/-- Reads a value that may be null. -/
def nullable? (read : Json → Option α) : Json → Option (Option α)
  | null => some none
  | value => (read value).map some

end Json

end Recourse
