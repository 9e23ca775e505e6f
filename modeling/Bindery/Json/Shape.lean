import Bindery.Json.Basic

/-!
Shapes of values. A shape reads a value of one form and refuses every other: nothing is converted,
and `null` stands only where a value may be missing. The fields of a record are given by name, where
unknown names are passed over and a known one stands once; most records can also be given as a list,
in which the fields stand in their order and trailing ones may be left out.
-/

set_option autoImplicit false
set_option relaxedAutoImplicit false

namespace Bindery.Shape

variable {α : Type}

abbrev Members := List (String × Json)

def text : Json → Option String
  | .str s => some s
  | _ => none

def flag : Json → Option Bool
  | .bool b => some b
  | _ => none

def list (element : Json → Option α) : Json → Option (List α)
  | .arr elements => elements.mapM element
  | _ => none

def nullable (value : Json → Option α) : Json → Option (Option α)
  | .null => some none
  | json => (value json).map some

/-- A number of 32 bits without sign. -/
def word32 : Json → Option Nat
  | .int n => if 0 ≤ n ∧ n.toNat < UInt32.size then some n.toNat else none
  | _ => none

/-- Whether every known name stands at most once. -/
def isUnique (known : List String) (members : Members) : Bool :=
  known.all fun name ↦ (members.filter (·.1 == name)).length ≤ 1

/-- The fields of a record that is given by name. -/
def named (known : List String) : Json → Option Members
  | .obj members => if isUnique known members then some members else none
  | _ => none

/-- The fields of a record that is given by name or as a list. -/
def record (known : List String) : Json → Option Members
  | .arr elements => if elements.length ≤ known.length then some (known.zip elements) else none
  | json => named known json

/-- The fields of a record that has no others. -/
def closedRecord (known : List String) (json : Json) : Option Members := do
  let members ← record known json
  if members.all fun member ↦ known.contains member.1 then some members else none

def needed (members : Members) (name : String) (value : Json → Option α) : Option α :=
  (members.lookup name).bind value

def given (members : Members) (name : String) (fallback : α) (value : Json → Option α) :
    Option α :=
  match members.lookup name with
  | some json => value json
  | none => some fallback

def optional (members : Members) (name : String) (value : Json → Option α) :
    Option (Option α) :=
  given members name none (nullable value)

/-- One of a list of names, as its text. -/
def choice (names : List String) : Json → Option String
  | .str s => if names.contains s then some s else none
  | _ => none

/-- One of a list of names, as its text or by its position. -/
def indexedChoice (names : List String) : Json → Option String
  | .int n => if 0 ≤ n then names[n.toNat]? else none
  | json => choice names json

end Bindery.Shape
