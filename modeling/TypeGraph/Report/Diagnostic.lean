/-!
This file defines diagnostics, the reports that a user of the program reads.
-/

namespace TypeGraph

/-- A diagnostic is an error or a warning. -/
inductive Severity where
  | error
  | warning
deriving DecidableEq, Repr

/-- A diagnostic says what happened to the entity that its context names. -/
structure Diagnostic where
  severity : Severity
  context : String
  message : String
deriving DecidableEq, Repr

/-- The diagnostics of one severity keep their order. -/
def Diagnostic.ofSeverity (severity : Severity) (diagnostics : List Diagnostic) :
    List Diagnostic :=
  diagnostics.filter fun diagnostic => diagnostic.severity = severity

end TypeGraph
