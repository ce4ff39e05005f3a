import TypeGraph.Catalog.Basic
import TypeGraph.Report.Diagnostic
import TypeGraph.Resolution.Failure

/-!
This file lists the events of a resolution in the order in which they arise. Problems are the events
that become diagnostics.
-/

namespace TypeGraph

/-- A problem is a loss or a limit that the user has to know about. -/
inductive Problem where
  | memberRemoved (label : String) (cause : Failure)
  | declarationRemoved (name : String) (cause : Failure)
  | interfaceDropped (holder : String) (entry : Unresolved)
  | boundUnresolved (holder : String) (bound : Unresolved)
  | passLimit (passes : Nat)
  | installationRefused (refusal : Refusal)
deriving DecidableEq

namespace Problem

/-- Losses of declared parts are errors, and the rest are warnings. -/
def severity : Problem → Severity
  | .memberRemoved _ _ => .error
  | .declarationRemoved _ _ => .error
  | .interfaceDropped _ _ => .error
  | .boundUnresolved _ _ => .warning
  | .passLimit _ => .warning
  | .installationRefused _ => .warning

/-- The context is the entity that lost something, or a bracketed name for the whole catalog. -/
def context : Problem → String
  | .memberRemoved label _ => label
  | .declarationRemoved name _ => name
  | .interfaceDropped holder _ => holder
  | .boundUnresolved holder _ => holder
  | .passLimit _ => "<api>"
  | .installationRefused _ => "<builtins>"

/-- The message states the loss and its cause. -/
def message : Problem → String
  | .memberRemoved _ cause => cause.message
  | .declarationRemoved name cause =>
      "Error while processing type '" ++ name ++ "': " ++ cause.message
  | .interfaceDropped _ entry =>
      "dropping interface '" ++ entry.text ++ "': " ++ entry.cause.message
  | .boundUnresolved _ bound =>
      "failed to resolve generic constraint '" ++ bound.text ++ "': " ++ bound.cause.message
  | .passLimit passes =>
      "stopped after " ++ toString passes ++ " passes without reaching a fixed point"
  | .installationRefused refusal => refusal.message

/-- A problem is shown as one diagnostic. -/
def diagnostic (problem : Problem) : Diagnostic :=
  ⟨problem.severity, problem.context, problem.message⟩

end Problem

/-- An event is one step of a resolution that an observer can see. -/
inductive Event where
  | unresolved (signature : Unresolved)
  | removingMember (label : String) (cause : Failure)
  | removingDeclaration (name : String) (cause : Failure)
  | reported (problem : Problem)
  | passFinished (pass removed : Nat)
  | installed (count : Nat)
  | finished (passes removedDeclarations removedMembers remaining : Nat)
deriving DecidableEq

/-- Levels order events by how much they concern a reader. -/
inductive Level where
  | error
  | warning
  | information
  | debug
  | trace
deriving DecidableEq, Repr

/-- A report has the level of its severity. -/
def Severity.level : Severity → Level
  | .error => .error
  | .warning => .warning

/-- Only the end of a run is information; all other steps are for debugging or tracing. -/
def Event.level : Event → Level
  | .unresolved _ => .trace
  | .removingMember _ _ => .debug
  | .removingDeclaration _ _ => .debug
  | .reported problem => problem.severity.level
  | .passFinished _ _ => .debug
  | .installed _ => .debug
  | .finished _ _ _ _ => .information

/-- The text of an event names the step; a report has the text of its diagnostic. -/
def Event.message : Event → String
  | .unresolved _ => "signature did not resolve"
  | .removingMember _ _ => "removing member"
  | .removingDeclaration _ _ => "removing type"
  | .reported problem => problem.message
  | .passFinished _ _ => "pass finished"
  | .installed _ => "installed builtin types"
  | .finished _ _ _ _ => "api resolved"

/-- The problem of an event is the one that it reports. -/
def Event.problem? : Event → Option Problem
  | .reported problem => some problem
  | _ => none

/-- The diagnostics of a list of events are its reports in order. -/
def Event.diagnostics (events : List Event) : List Diagnostic :=
  (events.filterMap Event.problem?).map Problem.diagnostic

@[simp] theorem Event.diagnostics_append (first second : List Event) :
    diagnostics (first ++ second) = diagnostics first ++ diagnostics second := by
  simp [diagnostics]

/-- A notice is an event together with the pass in which it arose. -/
structure Notice where
  event : Event
  pass : Option Nat
deriving DecidableEq

/-- The diagnostics of a list of notices are those of its events. -/
def Notice.diagnostics (notices : List Notice) : List Diagnostic :=
  Event.diagnostics (notices.map Notice.event)

@[simp] theorem Notice.diagnostics_append (first second : List Notice) :
    diagnostics (first ++ second) = diagnostics first ++ diagnostics second := by
  simp [diagnostics]

end TypeGraph
