import Bindery.Emit.Dependencies
import Bindery.Emit.Documentation
import Bindery.Emit.Header
import Bindery.Emit.Interface
import Bindery.Package.Analysis

/-!
Writing the outputs of a package. Each module has a dependency rule, an interface file with its
header, a script of constants if it needs one, and a documentation stub. Modules that fail do not
stop the others.
-/

set_option autoImplicit false
set_option relaxedAutoImplicit false

namespace Bindery

/-- The outcome of generating some modules. Both lists are in the order of the modules. -/
structure GenerationReport where
  generated : List String := []
  failures : List (String × Error) := []
  deriving Repr, DecidableEq

/-- The outcome of one module, with the place of the module in the list. -/
structure Outcome where
  place : Nat
  module : String
  result : Except Error Unit

namespace GenerationReport

def isSuccess (report : GenerationReport) : Bool := report.failures.isEmpty

def add (report : GenerationReport) (outcome : Outcome) : GenerationReport :=
  match outcome.result with
  | .ok () => { report with generated := report.generated ++ [outcome.module] }
  | .error e => { report with failures := report.failures ++ [(outcome.module, e)] }

/-- The report of outcomes, which can be collected in any order. -/
def ofOutcomes (outcomes : List Outcome) : GenerationReport :=
  (outcomes.mergeSort fun a b ↦ decide (a.place ≤ b.place)).foldl add {}

end GenerationReport

namespace Package

def rulesOf (policy : Policy) : Except Error TypemapRules :=
  TypemapRules.forModule policy.typemaps policy.mapApplies

/-- Writes the dependency rule of a module. -/
def writeRule (package : Package) (module : String) : Run Bool := do
  let policy ← ofExcept (package.policy module)
  let text := Dependencies.rule (← get).files package.config package.manifest policy
  Run.writeIfChanged (package.config.depsFile module) text

/-- The code of an analyzed module, by the paths of its files: the interface file, the header, and
the script if it needs one. -/
def codeTexts (package : Package) (module : String) (extraction : Extraction)
    (registry : InterfaceRegistry) : Except Error (List (String × String)) := do
  let policy ← package.policy module
  let rules ← rulesOf policy
  let header ← Emit.header ⟨policy, extraction.module⟩ registry rules
  let interface := Emit.interfaceFile policy extraction rules package.config
  let script? := Constants.script? policy.package extraction.module
  return [(package.config.interfaceFile module, interface),
      (package.config.headerFile module, header)] ++
    script?.toList.map fun script ↦ (package.config.scriptFile module, script)

/-- The documentation stub of an analyzed module. -/
def docText (package : Package) (module : String) (extraction : Extraction)
    (registry : InterfaceRegistry) : Except Error String := do
  let policy ← package.policy module
  Emit.documentation ⟨policy, extraction.module⟩ registry (← rulesOf policy)

/-- Writes the code of an analyzed module. -/
def emitCode (package : Package) (module : String) (extraction : Extraction) : Run Unit := do
  Run.writeTexts (← ofExcept (package.codeTexts module extraction (← get).registry))

/-- Writes the documentation stub of an analyzed module. -/
def emitDoc (package : Package) (module : String) (extraction : Extraction) : Run Bool := do
  let text ← ofExcept (package.docText module extraction (← get).registry)
  Run.writeIfChanged (package.config.docFile module) text

/-- Analyzes a module, and writes its code. -/
def writeCode (package : Package) (module : String) : Run Unit := do
  package.emitCode module (← package.analyze module)

/-- Analyzes a module, and writes its documentation. -/
def writeDoc (package : Package) (module : String) : Run Bool := do
  package.emitDoc module (← package.analyze module)

/-- The type maps that all modules share. -/
def commonTypemaps : Except Error String := do
  let rules ← TypemapRules.extendShared {}
  return Text.unlines (Emit.notice ++ "" :: rules.blocks .shared)

def writeCommonTypemaps (package : Package) : Run Bool := do
  let text ← ofExcept commonTypemaps
  Run.writeIfChanged package.config.commonTypemapsFile text

/-- Writes all outputs of a module. -/
def generate (package : Package) (module : String) : Run Unit := do
  let _ ← package.writeRule module
  package.writeCode module
  let _ ← package.writeDoc module

def generateAt (package : Package) (module : String × Nat) : StateM Session Outcome := do
  return ⟨module.2, module.1, ← (package.generate module.1).run⟩

/-- Generates each of some modules once. -/
def generateModules (package : Package) (modules : List String) :
    StateM Session GenerationReport := do
  return .ofOutcomes (← (addAllNew [] modules).zipIdx.mapM package.generateAt)

end Package

end Bindery
