import Bindery.Json.Shape

/-!
Documents of settings. A document is written in sections: an object is a section, a list that holds
objects only is a run of sections of one name, and every other value stands inline in its section.
The names that lead to a section and the brackets around an inline value are limited in number, and
a list that stands for a record may go on after the last field.
-/

set_option autoImplicit false
set_option relaxedAutoImplicit false

namespace Bindery

namespace Json

/-- Names of a section, and brackets of an inline value, are fewer than this. -/
def documentLimit : Nat := 80

def isObject : Json → Bool
  | .obj _ => true
  | _ => false

/-- Numbers of a document have 64 bits and a sign. -/
def isSignedWord (n : Int) : Bool := Int64.minValue.toInt ≤ n && n ≤ Int64.maxValue.toInt

mutual

/-- Whether a value can be written inside a number of open brackets. -/
def fitsInside (depth : Nat) : Json → Bool
  | .arr elements => depth + 1 < documentLimit && elementsFitInside (depth + 1) elements
  | .obj members => depth + 1 < documentLimit && membersFitInside (depth + 1) members
  | .int n => isSignedWord n
  | _ => true

def elementsFitInside (depth : Nat) : List Json → Bool
  | [] => true
  | json :: rest => fitsInside depth json && elementsFitInside depth rest

def membersFitInside (depth : Nat) : List (String × Json) → Bool
  | [] => true
  | (_, json) :: rest => fitsInside depth json && membersFitInside depth rest

end

mutual

/-- Whether a value can be written below a number of names. -/
def fitsBelow (depth : Nat) : Json → Bool
  | .obj members => depth < documentLimit && membersFitBelow (depth + 1) members
  | .arr elements =>
    if !elements.isEmpty && elements.all isObject then elementsFitBelow depth elements
    else fitsInside 0 (.arr elements)
  | json => fitsInside 0 json

def elementsFitBelow (depth : Nat) : List Json → Bool
  | [] => true
  | json :: rest => fitsBelow depth json && elementsFitBelow depth rest

def membersFitBelow (depth : Nat) : List (String × Json) → Bool
  | [] => true
  | (_, json) :: rest => fitsBelow depth json && membersFitBelow depth rest

end

/-- Whether a value can be written as a document, which is a section itself. -/
def isDocument (json : Json) : Bool := json.isObject && fitsBelow 0 json

end Json

namespace Shape

/-- How the fields of a record that has no others are found in a value. -/
abbrev RecordShape := List String → Json → Option Members

/-- In a document, a list may go on after the last field. -/
def documentRecord : RecordShape
  | known, .arr elements => some (known.zip elements)
  | known, json => closedRecord known json

/-- A value that is read from a document. -/
def document {α : Type} (value : Json → Option α) (json : Json) : Option α :=
  if json.isDocument then value json else none

end Shape

end Bindery
