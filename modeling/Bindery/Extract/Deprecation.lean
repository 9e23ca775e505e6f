import Bindery.Decl.Module
import Bindery.Policy.Basic

/-!
Forwarding wrappers. A deprecated method is no part of the interface of its class; in its place
stands a wrapper that warns and calls it.
-/

set_option autoImplicit false
set_option relaxedAutoImplicit false

namespace Bindery

structure Deprecations where
  /-- The wrappers of each generated class. -/
  extendCode : Table String (List String) := []
  /-- The wrappers of free functions. -/
  swigCode : List String := []
  deriving Repr, DecidableEq

namespace Deprecations

/-- The names of the parameters, as a call passes them on. -/
def callArgs (m : Method) : String := ",".intercalate (m.params.map Param.name)

def returnMark (m : Method) : String := if m.isVoid then "" else "return "

/-- A wrapper that declares `head`, warns of `shown`, and calls. -/
def wrapper (head shown call : String) : String :=
  head ++ " \x7b\n  std::wcerr << \"DEPRECATION WARNING: " ++ shown ++ "\" << std::endl;\n  " ++
    call ++ ";\n\x7d\n"

def methodWrapper (className : String) (m : Method) : String :=
  let type := (if m.isStatic then "static " else "") ++ m.typeText ++ " "
  wrapper (type ++ m.name ++ m.argsString) (type ++ className ++ "::" ++ m.name ++ m.argsString)
    (returnMark m ++ "$self->" ++ m.name ++ "(" ++ callArgs m ++ ")")

def functionWrapper (m : Method) : String :=
  let head := m.typeText ++ " " ++ m.name ++ m.argsString
  "// auto-generated deprecation function wrapper\n" ++
    wrapper head head (returnMark m ++ m.name ++ "(" ++ callArgs m ++ ")")

/-- Whether an overload is deprecated and not left out. -/
def isWrapped (m : Method) : Bool := !m.info.ignored && m.info.deprecated

def addMethod (className : String) (shims : Deprecations) (m : Method) : Deprecations :=
  { shims with
    extendCode := shims.extendCode.alter className []
      (· ++ Guard.enclose m.info.onlyFor [methodWrapper className m]) }

def addItem (policy : Policy) (shims : Deprecations) (item : Item) : Deprecations :=
  if item.info.ignored then shims
  else
    match item with
    | .ofClass c =>
      ((c.methods.flatMap Overloads.all).filter isWrapped).foldl
        (addMethod (policy.className c.name)) shims
    | .function chain =>
      { shims with
        swigCode := shims.swigCode ++ (chain.all.filter isWrapped).map functionWrapper }
    | _ => shims

/-- The wrappers of all deprecated methods and functions of a module. -/
def collect (policy : Policy) (m : Module) : Deprecations := m.items.foldl (addItem policy) {}

def isEmpty (shims : Deprecations) : Bool := shims.extendCode.isEmpty && shims.swigCode.isEmpty

def ofClass (shims : Deprecations) (className : String) : List String :=
  (shims.extendCode.find? className).getD []

end Deprecations

end Bindery
