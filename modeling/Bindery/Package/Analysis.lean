import Bindery.Interface.Check
import Bindery.Interface.Members
import Bindery.Package.Basic
import Bindery.Package.Session

/-!
The analysis of a module: it is extracted, its classes are registered, and its interfaces are
checked against those of their bases. The bases can be in other modules of the package, which are
extracted in order until one of them generates the class that is asked for.
-/

set_option autoImplicit false
set_option relaxedAutoImplicit false

namespace Bindery

/-- Drops the overrides that findings call needless. -/
def Session.settle (session : Session) (found : List Finding) : Session :=
  session.withRegistry (found.foldl Finding.settle session.registry)

namespace View

/-- Enters a class into the index of its package, if its base class is known. -/
def indexClass (view : View) (c : Class) : Run Unit := do
  let _ ← ofExcept (view.baseClass c)
  modify (·.indexClass c.name view.policy.moduleName)

/-- Registers a class that is not registered yet. -/
def registerClass (view : View) (c : Class) : Run Unit := do
  let className := view.className c
  if (← get).registry.hasClass className then return ()
  let interface ← ofExcept (view.interfaceOf c)
  let registry ← ofExcept ((← get).registry.register className interface)
  modify (·.withRegistry registry)

def registerClasses (view : View) : Run Unit := view.generatedClasses.forM view.registerClass

/-- Compares a class with one of its bases. `progress` holds the methods that nearer bases have
decided, and the findings so far. -/
def compareBase (ensure : String → Run Unit) (view : View) (className : String)
    (own : Table String RegisteredMethod) (progress : List String × List Finding)
    (base : String) : Run (List String × List Finding) := do
  ensure base
  let interface ← Run.expectInterface base
  let methods := Finding.undecided progress.1 interface.methods
  let found := Finding.ofMethods view.policy className own base methods
  modify (·.settle found)
  return (progress.1 ++ methods.keys, progress.2 ++ found)

/-- Compares a class with all of its bases, nearest first. -/
def checkClass (ensure : String → Run Unit) (view : View) (c : Class) : Run (List Finding) := do
  let own ← Run.expectInterface (view.className c)
  let (_, found) ← (view.baseList c).foldlM
    (view.compareBase ensure (view.className c) own.methods) (([], []) : _ × _)
  return found

/-- The findings about all classes of a module. `ensure` makes the interface of a class known. -/
def findings (ensure : String → Run Unit) (view : View) : Run (List Finding) := do
  view.generatedClasses.forM fun c ↦ ensure c.name
  let found ← view.generatedClasses.mapM (view.checkClass ensure)
  return found.flatten

/-- Checks all classes of a module. -/
def check (ensure : String → Run Unit) (view : View) : Run Report := do
  let found ← view.findings ensure
  let report : Report := found.map Finding.diagnostic
  ofExcept (report.toResult view.policy.moduleName view.policy.package)

end View

namespace Package

/-- The extraction of a module. It is made once, and kept when all base classes are known. -/
def extract (package : Package) (policy : Policy) : Run Extraction := do
  let session ← get
  match session.extractions.find? policy.moduleName with
  | some extraction => return extraction
  | none =>
    let load (item : String) : Except Error DeclFile := package.source.load session.files item
    let extraction ← ofExcept (policy.extract package.config load)
    let view : View := ⟨policy, extraction.module⟩
    view.generatedClasses.forM view.indexClass
    modify (·.keepExtraction policy.moduleName extraction)
    return extraction

/-- The policy of the module that a class is indexed for. -/
def indexedOwner? (package : Package) (className : String) : Run (Option Policy) := do
  match (← get).classIndex.find? className with
  | some module => return some (← ofExcept (package.policy module))
  | none => return none

/-- Extracts modules until one of them generates a class. -/
def searchOwner (package : Package) (className : String) : List Policy → Run Policy
  | [] => throw (.unknownOwner className)
  | policy :: rest => do
    let _ ← package.extract policy
    match ← package.indexedOwner? className with
    | some owner => return owner
    | none => package.searchOwner className rest

/-- The policy of the module that generates a class. -/
def owner (package : Package) (className : String) : Run Policy := do
  match ← package.indexedOwner? className with
  | some owner => return owner
  | none => package.searchOwner className package.policies

/-- Makes the interface of a class known, with those of its whole module. -/
def ensureInterface (package : Package) (className : String) : Run Unit := do
  if (← get).registry.hasClass className then return ()
  let policy ← package.owner className
  let extraction ← package.extract policy
  View.registerClasses ⟨policy, extraction.module⟩

/-- Extracts a module and registers its classes. -/
def prepare (package : Package) (module : String) : Run (Policy × Extraction) := do
  let policy ← ofExcept (package.policy module)
  let extraction ← package.extract policy
  View.registerClasses ⟨policy, extraction.module⟩
  return (policy, extraction)

/-- Extracts and registers a module, and checks it. -/
def check (package : Package) (module : String) : Run Report := do
  let (policy, extraction) ← package.prepare module
  View.check package.ensureInterface ⟨policy, extraction.module⟩

/-- Extracts and registers a module, and checks it unless it has passed before. -/
def analyze (package : Package) (module : String) : Run Extraction := do
  let (policy, extraction) ← package.prepare module
  if !(← get).checked.contains module then
    let _ ← View.check package.ensureInterface ⟨policy, extraction.module⟩
    modify fun session ↦ { session with checked := session.checked ++ [module] }
  return extraction

end Package

end Bindery
