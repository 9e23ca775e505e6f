import Bindery.Decl.Method

/-!
Addresses of declarations. An address is the path of names from the module scope down, joined by
`::`. Argument types in parentheses select one overload of a method, the one that is declared
`const` if `const` follows them.
-/

set_option autoImplicit false
set_option relaxedAutoImplicit false

namespace Bindery

structure Query where
  path : List String
  /-- The argument types that select one overload. -/
  args : Option (List String) := none
  isConst : Bool := false
  deriving Repr, DecidableEq

namespace Query

/-- The pieces between the commas that no bracket encloses. A closing bracket without an opening one
is passed over. -/
def splitTopLevel (depth : Nat) : List Char → List (List Char)
  | [] => [[]]
  | c :: cs =>
    if c == ',' && depth == 0 then [] :: splitTopLevel depth cs
    else if c == '<' || c == '(' then Text.consFirst c (splitTopLevel (depth + 1) cs)
    else if c == '>' || c == ')' then Text.consFirst c (splitTopLevel (depth - 1) cs)
    else Text.consFirst c (splitTopLevel depth cs)

/-- The argument types of a list. Empty pieces and `void` stand for no argument. -/
def splitArgs (cs : List Char) : List String :=
  ((splitTopLevel 0 cs).map fun piece ↦ String.ofList (Text.trimChars piece)).filter
    fun arg ↦ !arg.isEmpty && arg != "void"

def splitPath (cs : List Char) : List String :=
  (Text.splitScope (Text.trimChars cs)).map fun piece ↦ String.ofList (Text.trimChars piece)

/-- The argument list that follows the opening parenthesis, up to the last closing one, and what
comes after that. An argument list that is not closed reaches to the end, but it is empty when the
only closing parenthesis stands in the path. -/
def splitAtLastClose (path cs : List Char) : List Char × List Char :=
  match Text.cutAtFirst (· == ')') cs.reverse with
  | some (after, before) => (before.reverse, after.reverse)
  | none => if path.contains ')' then ([], []) else (cs, [])

def parse (fullName : String) : Query :=
  let cs := Text.trimChars fullName.toList
  match Text.cutAtFirst (· == '(') cs with
  | none => { path := splitPath cs }
  | some (path, rest) =>
    let (args, tail) := splitAtLastClose path rest
    { path := splitPath path
      args := some (splitArgs args)
      isConst := Text.trimChars tail == "const".toList }

/-- Whether an overload is the one that the argument types select. -/
def selects (query : Query) (m : Method) : Bool :=
  match query.args with
  | none => true
  | some args => m.isConst == query.isConst && m.takesTypes args

end Query

end Bindery
