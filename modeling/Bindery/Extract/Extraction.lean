import Bindery.Config
import Bindery.Decl.Locate
import Bindery.Extract.Deprecation
import Bindery.Policy.View
import Bindery.Source.Source

/-!
Extractions. The declarations of a module are read, and its policy is applied to them: inheritance
chains are overridden, names are ignored and then regarded, declarations are restricted to
platforms, and parameters are mapped. A name that is ignored or regarded in vain is passed over;
every other name has to be found.
-/

set_option autoImplicit false
set_option relaxedAutoImplicit false

namespace Bindery

structure Extraction where
  /-- The declarations with the policy applied. -/
  module : Module
  /-- The headers that the interface includes: those of the policy, then those of the classes. -/
  includes : List String
  deprecations : Deprecations

namespace Extraction

/-- The code that a generated class is extended with. -/
def extendCode (extraction : Extraction) (policy : Policy) (className : String) : String :=
  "\n".intercalate (policy.extendCodeOf className ++ extraction.deprecations.ofClass className)

def swigCode (extraction : Extraction) (policy : Policy) : String :=
  "\n".intercalate (policy.codeIn .swig ++ extraction.deprecations.swigCode)

end Extraction

namespace Policy

def overrideChains (policy : Policy) (m : Module) : Except Error Module :=
  policy.inheritanceChains.foldlM (fun m (className, chain) ↦
    match m.updateClass? className (·.setInheritanceChain chain) with
    | some m => .ok m
    | none => .error (.unresolved policy.moduleName className .overrideChain)) m

/-- Makes one decision on a name, if the name is found. -/
def decide (m : Module) (decision : String × Visibility) : Module :=
  (m.update? decision.1 (·.setIgnored decision.2.ignore decision.2.ignoreDoc)).getD m

/-- All names that are ignored, and after them all that are regarded. -/
def decisions (policy : Policy) : List (String × Visibility) :=
  policy.visibility.filter (·.2.ignore) ++ policy.visibility.filter (!·.2.ignore)

def applyVisibility (policy : Policy) (m : Module) : Module := policy.decisions.foldl decide m

def guardLabel : Guard → String
  | .single platform => platform
  | .anyOf platforms => ", ".intercalate platforms

def restrict (policy : Policy) (guard : Guard) (m : Module) (name : String) :
    Except Error Module :=
  match m.update? name ({ · with onlyFor := some guard }) with
  | some m => .ok m
  | none => .error (.unresolved policy.moduleName name (.restrict (guardLabel guard)))

def applyRestrictions (policy : Policy) (m : Module) : Except Error Module :=
  policy.onlyFor.foldlM (fun m (guard, names) ↦ names.foldlM (policy.restrict guard) m) m

def ignoreForPlatform (m : Module) (name : String) : Module :=
  (m.update? name fun info ↦ info.setIgnored true info.ignoreDoc).getD m

/-- Leaves out what is restricted to other platforms. -/
def dropForeign (policy : Policy) (platform : String) (m : Module) : Module :=
  policy.onlyFor.foldl (fun m (guard, names) ↦
    if guard.admits platform then m else names.foldl ignoreForPlatform m) m

def applyPlatform (policy : Policy) (platform : Option String) (m : Module) : Module :=
  match platform with
  | some platform => policy.dropForeign platform m
  | none => m

def addMappings (mappings : List ParamMapping) (c : Class) : Class :=
  { c with paramMappings := c.paramMappings ++ mappings }

def applyMappings (policy : Policy) (m : Module) : Except Error Module :=
  policy.paramMappings.foldlM (fun m (className, mappings) ↦
    match m.updateClass? className (addMappings mappings) with
    | some m => .ok m
    | none => .error (.unresolved policy.moduleName className .mapParams)) m

/-- The headers of the policy and of the classes that are not left out. -/
def headers (policy : Policy) (m : Module) : List String :=
  addAllNew policy.includes ((m.classes.filter (!·.info.ignored)).flatMap Class.includes)

/-- Reads the declarations of a module and applies its policy. -/
def extract (policy : Policy) (config : Config) (load : String → Except Error DeclFile) :
    Except Error Extraction := do
  let m ← Module.extract load policy.moduleName policy.items
  let m ← policy.overrideChains m
  let m ← policy.applyRestrictions (policy.applyVisibility m)
  let m ← policy.applyMappings (policy.applyPlatform config.platform m)
  return {
    module := m
    includes := policy.headers m
    deprecations := if config.noDeprecate then {} else Deprecations.collect policy m }

end Policy

end Bindery
