import Bindery.Package.Calls

/-!
All that can be asked of a package. An operation that fails keeps what it has done before it failed,
and the next one starts from there.
-/

set_option autoImplicit false
set_option relaxedAutoImplicit false

namespace Bindery

inductive Operation
  | extract (module : String)
  /-- Looks up the module of a class. -/
  | owner (className : String)
  /-- Makes the interface of a class known. -/
  | ensure (className : String)
  | check (module : String)
  | call (call : Call)
  /-- Writes the dependency rule of a module. -/
  | rule (module : String)
  /-- Generates some modules, or a single one. -/
  | generate (modules : List String)
  | commonTypemaps
  deriving Repr, DecidableEq

/-- What works on one module: its extraction, or a call for it. -/
inductive Task
  | extract (module : String)
  | call (call : Call)
  deriving Repr, DecidableEq

def Task.operation : Task → Operation
  | .extract module => .extract module
  | .call c => .call c

namespace Package

/-- The session after an operation, whatever the operation ends with. -/
def operate (package : Package) (operation : Operation) (session : Session) : Session :=
  match operation with
  | .extract module =>
    ((ofExcept (package.policy module) >>= package.extract : Run Extraction).run session).2
  | .owner className => ((package.owner className).run session).2
  | .ensure className => ((package.ensureInterface className).run session).2
  | .check module => ((package.check module).run session).2
  | .call call => ((package.perform call).run session).2
  | .rule module => ((package.writeRule module).run session).2
  | .generate modules => ((package.generateModules modules).run session).2
  | .commonTypemaps => (package.writeCommonTypemaps.run session).2

/-- The session after some operations. -/
def afterOperations (package : Package) (start : Session) (operations : List Operation) :
    Session := operations.foldl (fun session operation ↦ package.operate operation session) start

@[simp] theorem afterOperations_nil (package : Package) (start : Session) :
    package.afterOperations start [] = start := rfl

theorem afterOperations_concat (package : Package) (start : Session) (operations : List Operation)
    (operation : Operation) : package.afterOperations start (operations ++ [operation]) =
      package.operate operation (package.afterOperations start operations) := List.foldl_append

def afterTasks (package : Package) (start : Session) (tasks : List Task) : Session :=
  package.afterOperations start (tasks.map Task.operation)

@[simp] theorem afterTasks_nil (package : Package) (start : Session) :
    package.afterTasks start [] = start := rfl

theorem afterTasks_concat (package : Package) (start : Session) (tasks : List Task) (task : Task) :
    package.afterTasks start (tasks ++ [task]) =
      package.operate task.operation (package.afterTasks start tasks) := by
  rw [afterTasks, List.map_append, List.map_singleton, afterOperations_concat]
  rfl

end Package

end Bindery
