import TypeGraph.Resolution.Run

/-!
This file defines sinks, which are handed the reports of a resolution. A sink gives nothing back, so
it has no influence on the resolution.
-/

namespace TypeGraph

/-- A sink changes its state with every diagnostic that it is handed. -/
structure Sink (State : Type) where
  log : State → Diagnostic → State

/-- The collector keeps every diagnostic in the order of reporting. -/
def Sink.collector : Sink (List Diagnostic) :=
  ⟨fun collected diagnostic => collected ++ [diagnostic]⟩

/-- The collector keeps new diagnostics behind the old ones. -/
theorem Sink.foldl_collector (collected diagnostics : List Diagnostic) :
    diagnostics.foldl Sink.collector.log collected = collected ++ diagnostics := by
  induction diagnostics generalizing collected with
  | nil => exact (List.append_nil _).symm
  | cons diagnostic rest inductionHypothesis =>
      rw [List.foldl_cons, inductionHypothesis, Sink.collector, List.append_assoc]
      rfl

/-- A delivery is what a resolution leaves to a caller who gave it a sink. -/
structure Delivery (State : Type) where
  catalog : Catalog
  summary : Summary
  state : State

namespace Catalog

/-- A resolution into a sink hands over the reports of the run one after another. -/
def resolveInto {State : Type} (catalog : Catalog) (options : Options) (sink : Sink State)
    (state : State) : Delivery State :=
  let run := catalog.resolve options
  ⟨run.catalog, run.summary, (Notice.diagnostics run.notices).foldl sink.log state⟩

/-- A traced resolution has the standard options, and its reports show only in its notices. -/
def resolveTraced (catalog : Catalog) : Run :=
  catalog.resolve .standard

end Catalog

end TypeGraph
