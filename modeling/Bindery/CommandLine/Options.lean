import Bindery.Text.Pieces

/-!
The options of the `generate` command.
-/

set_option autoImplicit false
set_option relaxedAutoImplicit false

namespace Bindery.CommandLine

structure Options where
  manifest : String := "rwx.toml"
  /-- The number of jobs, if one is given. -/
  jobs : Option Nat := none
  /-- The modules to generate, or none for all of them. -/
  modules : List String := []
  depsOnly : Bool := false
  deriving Repr, DecidableEq

inductive UsageFault
  | missingCommand
  | unknownCommand (command : String)
  | missingValue (flag : String)
  | badJobs (value : String)
  | unknownFlag (flag : String)
  deriving Repr, DecidableEq

def usage : String :=
  "Usage: rwx <command> [options]\n\n" ++
  "Commands:\n" ++
  "  generate     Generate interface, header, script, doc and dependency files\n" ++
  "  directors    List the built-in director setups\n\n" ++
  "Options for generate:\n" ++
  "  -m, --manifest <path>   Package manifest (default: rwx.toml)\n" ++
  "  -j, --jobs <n>          Worker threads (default: available cores)\n" ++
  "      --module <name>     Only generate this module (repeatable)\n" ++
  "      --deps-only         Only write dependency files\n" ++
  "  -v, --verbose           Debug logging\n" ++
  "      --trace             Trace logging"

def UsageFault.message : UsageFault → String
  | .missingCommand => "missing command\n\n" ++ usage
  | .unknownCommand command => "Unknown command: " ++ command ++ "\n\n" ++ usage
  | .missingValue flag => flag ++ " requires a value"
  | .badJobs value => "--jobs expects a positive number, got '" ++ value ++ "'"
  | .unknownFlag flag => "Unknown flag: " ++ flag

/-- A positive number of 64 bits in decimal digits, with an optional plus sign. -/
def jobs? (value : String) : Option Nat :=
  let cs := value.toList
  let digits := (Text.afterStart? ['+'] cs).getD cs
  let n := digits.foldl (fun n c ↦ n * 10 + (c.toNat - '0'.toNat)) 0
  if !digits.isEmpty && digits.all Char.isDigit && 0 < n && n < UInt64.size then some n else none

def isLoggingFlag (flag : String) : Bool :=
  flag == "--verbose" || flag == "-v" || flag == "--trace"

/-- Reads options in front of those given already. A later option replaces an earlier one, and
modules add up. -/
def Options.parse (options : Options) : List String → Except UsageFault Options
  | [] => .ok options
  | flag :: rest =>
    if flag == "--manifest" || flag == "-m" then
      match rest with
      | [] => .error (.missingValue "--manifest")
      | value :: rest => Options.parse { options with manifest := value } rest
    else if flag == "--jobs" || flag == "-j" then
      match rest with
      | [] => .error (.missingValue "--jobs")
      | value :: rest =>
        match jobs? value with
        | some n => Options.parse { options with jobs := some n } rest
        | none => .error (.badJobs value)
    else if flag == "--module" then
      match rest with
      | [] => .error (.missingValue "--module")
      | value :: rest => Options.parse { options with modules := options.modules ++ [value] } rest
    else if flag == "--deps-only" then Options.parse { options with depsOnly := true } rest
    else if isLoggingFlag flag then Options.parse options rest
    else .error (.unknownFlag flag)

end Bindery.CommandLine
