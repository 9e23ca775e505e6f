import Bindery.CommandLine.Options
import Bindery.Package.Generation

/-!
The commands: generating the files of a package, listing the built-in setups, and showing the usage.
A command turns the files into new files, writes to the two output streams, and succeeds or fails.
-/

set_option autoImplicit false
set_option relaxedAutoImplicit false

namespace Bindery.CommandLine

/-- Why a command stops. -/
inductive Failure
  | usage (fault : UsageFault)
  | package (error : Error)

def Failure.message : Failure → String
  | .usage fault => fault.message
  | .package error => error.message

structure Result where
  success : Bool
  output : List String := []
  errors : List String := []

/-- The modules that are asked for, which are all of the package when none is named. -/
def chosenModules (package : Package) (options : Options) : Except Error (List String) := do
  if options.modules.isEmpty then return package.moduleNames
  else
    options.modules.forM fun module ↦ do let _ ← package.policy module
    return options.modules

def countText (n : Nat) : String := toString n

def startLine (package : Package) (modules : List String) (jobs : Nat) : String :=
  "Generating " ++ countText modules.length ++ " modules of package " ++ package.name ++ " (" ++
    countText jobs ++ " jobs)..."

def summary (report : GenerationReport) : List String :=
  ["", "Generation complete: " ++ countText report.generated.length ++ " generated, " ++
    countText report.failures.length ++ " failed"]

def failureLine (failure : String × Error) : String :=
  "  " ++ failure.1 ++ ": " ++ failure.2.message

/-- Writes only the dependency rules. -/
def writeRules (package : Package) (modules : List String) : Run Result := do
  modules.forM fun module ↦ do let _ ← package.writeRule module
  return {
    success := true
    output := ["Dependency files written for " ++ countText modules.length ++ " modules"] }

def generateAll (package : Package) (modules : List String) (jobs : Nat) : Run Result := do
  let _ ← package.writeCommonTypemaps
  let report ← package.generateModules modules
  return {
    success := report.isSuccess
    output := startLine package modules jobs :: summary report
    errors := report.failures.map failureLine }

/-- The `generate` command. `processors` is the number of jobs when none is given. -/
def generate (processors : Nat) (options : Options) : Run Result := do
  let manifest ← ofExcept (Manifest.load (← get).files options.manifest)
  let package ← ofExcept (Package.ofManifest manifest (some options.manifest))
  let modules ← ofExcept (chosenModules package options)
  if options.depsOnly then writeRules package modules
  else generateAll package modules (options.jobs.getD processors)

inductive Command
  | generate (options : Options)
  | directors
  | help

def Command.parse : List String → Except UsageFault Command
  | [] => .error .missingCommand
  | command :: rest =>
    if command == "generate" then (Options.parse {} rest).map .generate
    else if command == "directors" then .ok .directors
    else if command == "help" || command == "--help" || command == "-h" then .ok .help
    else .error (.unknownCommand command)

def Command.run (processors : Nat) : Command → Run Result
  | .generate options => CommandLine.generate processors options
  | .directors => return { success := true, output := Preset.names }
  | .help => return { success := true, output := [usage] }

def failed (failure : Failure) : Result :=
  { success := false, errors := ["Error: " ++ failure.message] }

/-- Runs the command that some arguments ask for. -/
def run (processors : Nat) (args : List String) (files : Files) : Result × Files :=
  match Command.parse args with
  | .error fault => (failed (.usage fault), files)
  | .ok command =>
    let (outcome, session) := ((command.run processors).run).run { files }
    match outcome with
    | .ok result => (result, session.files)
    | .error error => (failed (.package error), session.files)

end Bindery.CommandLine
