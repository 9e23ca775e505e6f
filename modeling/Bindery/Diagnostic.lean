import Bindery.Error

/-!
Findings of a check. A report holds them in the order in which they were made, and fails with all of
its errors when it has any.
-/

set_option autoImplicit false
set_option relaxedAutoImplicit false

namespace Bindery

inductive Severity
  | error
  | warning
  | info
  deriving Repr, DecidableEq

def Severity.label : Severity → String
  | .error => "ERROR"
  | .warning => "WARNING"
  | .info => "INFO"

structure Diagnostic where
  severity : Severity
  message : String
  /-- The class that the finding is about. -/
  className : Option String := none
  deriving Repr, DecidableEq

def Diagnostic.display (d : Diagnostic) : String := "* " ++ d.severity.label ++ ": " ++ d.message

abbrev Report := List Diagnostic

namespace Report

def ofSeverity (report : Report) (severity : Severity) : Report :=
  report.filter (·.severity == severity)

def hasErrors (report : Report) : Bool := report.any (·.severity == .error)

/-- The report itself, or one error that lists all errors of it. -/
def toResult (report : Report) (module package : String) : Except Error Report :=
  if report.hasErrors then
    .error (.inconsistent module package ((report.ofSeverity .error).map Diagnostic.display))
  else .ok report

end Report

end Bindery
