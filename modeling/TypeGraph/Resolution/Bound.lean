import TypeGraph.Declaration.Slot
import TypeGraph.Resolution.Lookup
import TypeGraph.Resolution.Tally

/-!
This file settles slots and the bounds of type parameters. A bound that fails is cleared and marked,
and a marked bound stays as it is.
-/

namespace TypeGraph

variable (lookup : Lookup) (scopes : List Scope)

/-- A settled slot holds the reference of its text. -/
def Slot.settle (slot : Slot) : Except Unresolved Slot :=
  match resolveText lookup scopes slot.text with
  | .error unresolved => .error unresolved
  | .ok reference => .ok ⟨slot.text, some reference⟩

/-- The failure of a bound is the one found now; a marked bound has none. -/
def Bound.failure? (bound : Bound) : Option Unresolved :=
  if bound.unresolvable then none
  else
    match bound.slot.settle lookup scopes with
    | .error unresolved => some unresolved
    | .ok _ => none

/-- A bound without a mark gets its reference or its mark. -/
def Bound.settle (bound : Bound) : Bound :=
  if bound.unresolvable then bound
  else
    match bound.slot.settle lookup scopes with
    | .error _ => ⟨⟨bound.slot.text, none⟩, true⟩
    | .ok slot => ⟨slot, false⟩

/-- A settled type parameter has settled bounds. -/
def TypeParameter.settle (parameter : TypeParameter) : TypeParameter :=
  { parameter with bounds := parameter.bounds.map fun bound => bound.settle lookup scopes }

/-- The failures of all bounds stand in declaration order. -/
def TypeParameter.failures (parameters : List TypeParameter) : List Unresolved :=
  parameters.flatMap fun parameter =>
    parameter.bounds.filterMap fun bound => bound.failure? lookup scopes

/-- All failures are noted before the first one is reported. -/
def TypeParameter.failureEvents (holder : String) (failures : List Unresolved) : List Event :=
  failures.map Event.unresolved ++
    failures.map fun failure => Event.reported (.boundUnresolved holder failure)

/-- The bounds of a list of type parameters are settled together, and failures only warn. -/
def TypeParameter.settleAll (holder : String) (parameters : List TypeParameter) :
    Settled (List TypeParameter) :=
  let failures := failures lookup scopes parameters
  ⟨parameters.map fun parameter => parameter.settle lookup scopes,
    ⟨0, 0, failures.length⟩, failureEvents holder failures⟩

/-- Settling keeps the names that a scope is made of. -/
theorem TypeParameter.names_settleAll (holder : String) (parameters : List TypeParameter) :
    (settleAll lookup scopes holder parameters).value.map TypeParameter.name =
      parameters.map TypeParameter.name := by
  simp only [settleAll, List.map_map]
  rfl

end TypeGraph
