import Bindery.Decl.Class
import Bindery.Ordered
import Bindery.Policy.Kinds
import Bindery.Typemap.Basic

/-!
The policy of a module: what is left out of its interface, renamed, restricted or added, how its
classes are derived, and which native types are mapped.
-/

set_option autoImplicit false
set_option relaxedAutoImplicit false

namespace Bindery

/-- Whether a declaration is left out of the interface and of the documentation. -/
structure Visibility where
  ignore : Bool
  ignoreDoc : Bool
  deriving Repr, DecidableEq

structure Policy where
  moduleName : String
  package : String
  /-- The built-in setup that the policy starts from. -/
  preset : Option String := none
  /-- The declaration files of the module. -/
  items : List String
  /-- The last decision on each name, in the order in which they were made. -/
  visibility : Table String Visibility := []
  onlyFor : List (Guard × List String) := []
  renames : Table String (List String) := []
  rubyRenames : Table String (List String) := []
  foldedBases : Table String (List String) := []
  ignoredBases : Table String (List String) := []
  /-- Bases that are dropped from every hierarchy. -/
  commonIgnoredBases : List String := []
  overrideBases : Table String String := []
  inheritanceChains : Table String (List String) := []
  disowns : List (String × Bool) := []
  newObjects : List String := []
  extendCode : Table String (List String) := []
  interfaceExtensions : Table String (List (Protection × String)) := []
  abstracts : List String := []
  mixins : List String := []
  gcDefault : Option GcType := none
  gcTypes : Table String GcType := []
  noProxies : List String := []
  forcedProxies : List String := []
  disabledProxies : Bool := false
  typemaps : List Typemap := []
  mapApplies : List MapApply := []
  paramMappings : Table String (List ParamMapping) := []
  includes : List String := []
  swigIncludes : List String := []
  swigImportsPrepend : List String := []
  swigImportsAppend : List String := []
  /-- Code for the sections of the interface file, in the order in which it was added. -/
  code : List (CodeSection × String) := []
  warnFilters : Table Nat (List String) := []
  /-- Kinds of declarations that are left out. -/
  skipped : List GenKind := []
  templatesAsClass : Table String String := []

namespace Policy

/-- The policy of a module that nothing has been said about. Its declarations are in the file of its
own name. -/
def empty (moduleName package : String) : Policy :=
  { moduleName, package, items := [moduleName] }

def codeIn (policy : Policy) (part : CodeSection) : List String :=
  (policy.code.filter (·.1 == part)).map Prod.snd

def codeText (policy : Policy) (part : CodeSection) : String :=
  "\n".intercalate (policy.codeIn part)

def generates (policy : Policy) (kind : GenKind) : Bool := !policy.skipped.contains kind

/-- The name that a class is generated under. -/
def className (policy : Policy) (name : String) : String :=
  (policy.templatesAsClass.find? name).getD name

def templateAsClass (policy : Policy) (name : String) : Bool :=
  policy.templatesAsClass.contains name

def foldedBasesOf (policy : Policy) (name : String) : List String :=
  (policy.foldedBases.find? name).getD []

/-- Whether some class takes in the members of this one. -/
def isFoldedBase (policy : Policy) (name : String) : Bool :=
  policy.foldedBases.any (·.2.contains name)

def ignoredBasesOf (policy : Policy) (name : String) : List String :=
  (policy.ignoredBases.find? name).getD [] ++ policy.commonIgnoredBases

def extensionsOf (policy : Policy) (name : String) (protection : Protection) : List String :=
  (((policy.interfaceExtensions.find? name).getD []).filter (·.1 == protection)).map Prod.snd

def extendCodeOf (policy : Policy) (name : String) : List String :=
  (policy.extendCode.find? name).getD []

/-- Whether a method of a class can be overridden in the target language. It is denied by its name
in the class itself or in the class that declares it. -/
def hasMethodProxy (policy : Policy) (className : String) (m : Method) : Bool :=
  let denied (owner : String) : Bool := policy.noProxies.contains (owner ++ "::" ++ m.name)
  if policy.disabledProxies || !m.isVirtual then false
  else !denied className && m.className.all fun owner ↦ owner == className || !denied owner

end Policy

end Bindery
