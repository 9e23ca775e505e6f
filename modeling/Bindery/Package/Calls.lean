import Bindery.Package.Generation

/-!
Sequences of calls on a package. Each call is for one module. A call that fails does not stop those
after it, and they find what it has done before it failed.
-/

set_option autoImplicit false
set_option relaxedAutoImplicit false

namespace Bindery

inductive CallKind
  | analyze
  | code
  | doc
  deriving Repr, DecidableEq

structure Call where
  kind : CallKind
  module : String
  deriving Repr, DecidableEq

/-- What a call returns. -/
inductive Reply
  | extraction (extraction : Extraction)
  | code
  /-- Tells whether the stub was written. -/
  | doc (written : Bool)

namespace Package

def perform (package : Package) (call : Call) : Run Reply :=
  match call.kind with
  | .analyze => return .extraction (← package.analyze call.module)
  | .code => do
    package.writeCode call.module
    return .code
  | .doc => return .doc (← package.writeDoc call.module)

/-- What a call does after the analysis of its module. -/
def emit (package : Package) (call : Call) (extraction : Extraction) : Run Reply :=
  match call.kind with
  | .analyze => return .extraction extraction
  | .code => do
    package.emitCode call.module extraction
    return .code
  | .doc => return .doc (← package.emitDoc call.module extraction)

theorem perform_eq (package : Package) (call : Call) :
    package.perform call = package.analyze call.module >>= package.emit call := by
  obtain ⟨kind, module⟩ := call
  cases kind with
  | analyze => rfl
  | code => exact bind_assoc (package.analyze module) (package.emitCode module) _
  | doc => exact bind_assoc (package.analyze module) (package.emitDoc module) _

/-- The session after some calls. -/
def after (package : Package) (start : Session) (calls : List Call) : Session :=
  calls.foldl (fun session call ↦ ((package.perform call).run session).2) start

@[simp] theorem after_nil (package : Package) (start : Session) : package.after start [] = start :=
  rfl

theorem after_append (package : Package) (start : Session) (calls more : List Call) :
    package.after start (calls ++ more) = package.after (package.after start calls) more :=
  List.foldl_append

theorem after_concat (package : Package) (start : Session) (calls : List Call) (call : Call) :
    package.after start (calls ++ [call]) =
      ((package.perform call).run (package.after start calls)).2 :=
  after_append package start calls [call]

/-- The files that a kind of call writes for a module, by their paths. -/
def outputs (package : Package) (kind : CallKind) (module : String) : List String :=
  match kind with
  | .analyze => []
  | .code => [package.config.interfaceFile module, package.config.headerFile module,
      package.config.scriptFile module]
  | .doc => [package.config.docFile module]

end Package

end Bindery
