import Bindery.Diagnostic
import Bindery.Interface.Registry
import Bindery.Policy.Basic

/-!
Comparing a class with its bases. A virtual method must be overridable in a class just when it is in
the nearest base that has it. An override that is not is dropped, which leaves the method of the
base in place; every other difference is an error.
-/

set_option autoImplicit false
set_option relaxedAutoImplicit false

namespace Bindery

/-- How a class differs from a base on a virtual method. -/
inductive Conflict
  /-- The class would open a method that the base keeps closed, without declaring it. -/
  | opened
  /-- The class overrides a method that both keep closed. -/
  | needless
  /-- The class closes a method that the base keeps open. -/
  | closed
  deriving Repr, DecidableEq

structure Finding where
  conflict : Conflict
  signature : String
  className : String
  base : String
  deriving Repr, DecidableEq

namespace Conflict

def severity : Conflict → Severity
  | .opened => .error
  | .needless => .warning
  | .closed => .error

/-- The difference between a class and a base, from the entry of the class, if it has one, and the
entry of the base. -/
def between? (policy : Policy) (className : String) (own : Option RegisteredMethod)
    (base : RegisteredMethod) : Option Conflict :=
  let isOpen (m : Method) : Bool := policy.hasMethodProxy className m
  if !base.isVirtual then none
  else if base.proxy then if own.isSome && !isOpen base.method then some .closed else none
  else
    match own with
    | none => if isOpen base.method then some .opened else none
    | some entry => if !entry.extension && !isOpen entry.method then some .needless else none

end Conflict

namespace Finding

def message (finding : Finding) : String :=
  match finding.conflict with
  | .opened => "method " ++ finding.signature ++
      " is proxied without wrapper implementation in class " ++ finding.className ++
      " but not proxied in base class " ++ finding.base ++ "!"
  | .needless => "Unnecessary override " ++ finding.signature ++ " in class " ++
      finding.className ++ " for non-proxied base in " ++ finding.base ++ ". Ignoring."
  | .closed => "method " ++ finding.signature ++
      " is NOT proxied with an overriden wrapper implementation in class " ++ finding.className ++
      " but is also implemented and proxied in base class " ++ finding.base ++ "!"

def diagnostic (finding : Finding) : Diagnostic where
  severity := finding.conflict.severity
  message := finding.message
  className := some finding.className

/-- The findings about a class, from its own methods and methods of a base. -/
def ofMethods (policy : Policy) (className : String) (own : Table String RegisteredMethod)
    (base : String) (methods : Table String RegisteredMethod) : List Finding :=
  methods.filterMap fun (signature, entry) ↦
    (Conflict.between? policy className (own.find? signature) entry).map fun conflict ↦
      { conflict, signature, className, base }

/-- The methods of a base that no nearer base has. -/
def undecided (handled : List String) (methods : Table String RegisteredMethod) :
    Table String RegisteredMethod :=
  methods.filter (!handled.contains ·.1)

/-- Drops the override that a finding calls needless. -/
def settle (registry : InterfaceRegistry) (finding : Finding) : InterfaceRegistry :=
  match finding.conflict with
  | .needless => registry.drop finding.className finding.signature
  | _ => registry

end Finding

end Bindery
