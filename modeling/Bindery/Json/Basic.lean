/-!
Values of the data format in which declarations, policies and typemaps are written. Members of an
object keep their order, and a name may occur twice: whether that is acceptable is for the reader of
the value to decide.
-/

set_option autoImplicit false
set_option relaxedAutoImplicit false

namespace Bindery

inductive Json
  | null
  | bool (value : Bool)
  | int (value : Int)
  /-- A number that is not written as an integer of 64 bits, with its text. -/
  | real (lexeme : String)
  | str (value : String)
  | arr (elements : List Json)
  | obj (members : List (String × Json))
  deriving Inhabited, Repr, BEq

/-- The first member of an object with a given name. -/
def Json.get? (json : Json) (name : String) : Option Json :=
  match json with
  | .obj members => members.lookup name
  | _ => none

namespace Json

def texts (xs : List String) : Json := .arr (xs.map .str)

def optText (s : Option String) : Json := (s.map Json.str).getD .null

/-- A value with its kind. -/
def tag (kind : String) (json : Json) : Json := .obj [(kind, json)]

end Json

end Bindery
