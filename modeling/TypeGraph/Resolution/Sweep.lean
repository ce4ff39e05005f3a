import TypeGraph.Catalog.Basic
import TypeGraph.Resolution.Declaration

/-!
This file settles the declarations of a catalog one after another. A declaration that fails is
removed at once, so the ones visited later no longer find it.
-/

namespace TypeGraph

/-- A visit leaves the catalog unchanged when the declaration fails. -/
structure Visit where
  catalog : Catalog
  events : List Event
  result : Except Failure Tally

/-- Progress is the catalog reached so far with everything removed, counted and seen on the way. -/
structure Progress where
  catalog : Catalog
  removed : List String
  tally : Tally
  events : List Event

/-- Progress continues from the catalog that earlier progress reached. -/
def Progress.andThen (earlier later : Progress) : Progress :=
  ⟨later.catalog, earlier.removed ++ later.removed, earlier.tally + later.tally,
    earlier.events ++ later.events⟩

namespace Catalog

/-- A live declaration is settled and stored; an empty place is passed over. -/
def visit (catalog : Catalog) (policy : InterfacePolicy) (handle : Handle) : Visit :=
  match catalog.declaration? handle with
  | none => ⟨catalog, [], .ok .zero⟩
  | some declaration =>
      let settlement := declaration.settle catalog.lookup? policy handle
      match settlement.result with
      | .error failure => ⟨catalog, settlement.events, .error failure⟩
      | .ok (settled, tally) =>
          ⟨catalog.update handle fun _ => settled, settlement.events, .ok tally⟩

/-- A step visits a declaration and removes it when it fails. -/
def step (catalog : Catalog) (policy : InterfacePolicy) (handle : Handle) : Progress :=
  let visit := catalog.visit policy handle
  match visit.result with
  | .ok tally => ⟨visit.catalog, [], tally, visit.events⟩
  | .error failure =>
      let name := (visit.catalog.qualifiedName? handle).getD ""
      ⟨visit.catalog.remove handle, [name], .zero,
        visit.events ++
          [.removingDeclaration name failure, .reported (.declarationRemoved name failure)]⟩

/-- A sweep takes one step for every handle. -/
def sweep (catalog : Catalog) (policy : InterfacePolicy) : List Handle → Progress
  | [] => ⟨catalog, [], .zero, []⟩
  | handle :: rest =>
      let first := catalog.step policy handle
      first.andThen (first.catalog.sweep policy rest)

/-- Classes are visited before interfaces, each in the order of their packages. -/
def visitOrder (catalog : Catalog) : List Handle :=
  ((catalog.declarations.filter fun entry => entry.2.isClass) ++
    (catalog.declarations.filter fun entry => entry.2.isInterface)).map Prod.fst

/-- A pass sweeps over the declarations that are live when it starts. -/
def pass (catalog : Catalog) (policy : InterfacePolicy) : Progress :=
  catalog.sweep policy catalog.visitOrder

/-! ### Steps -/

variable {catalog : Catalog} {policy : InterfacePolicy} {handle : Handle}

theorem step_of_absent (absent : catalog.declaration? handle = none) :
    catalog.step policy handle = ⟨catalog, [], .zero, []⟩ := by
  simp [step, visit, absent]

theorem step_of_ok {declaration settled : Declaration} {tally : Tally}
    (found : catalog.declaration? handle = some declaration)
    (result : (declaration.settle catalog.lookup? policy handle).result = .ok (settled, tally)) :
    catalog.step policy handle =
      ⟨catalog.update handle fun _ => settled, [], tally,
        (declaration.settle catalog.lookup? policy handle).events⟩ := by
  simp [step, visit, found, result]

theorem step_of_error {declaration : Declaration} {failure : Failure}
    (found : catalog.declaration? handle = some declaration)
    (result : (declaration.settle catalog.lookup? policy handle).result = .error failure) :
    catalog.step policy handle =
      ⟨catalog.remove handle, [declaration.qualifiedName], .zero,
        (declaration.settle catalog.lookup? policy handle).events ++
          [.removingDeclaration declaration.qualifiedName failure,
            .reported (.declarationRemoved declaration.qualifiedName failure)]⟩ := by
  simp [step, visit, found, result, qualifiedName?]

/-- Every removal of a step takes away one live declaration. -/
theorem liveCount_step (catalog : Catalog) (policy : InterfacePolicy) (handle : Handle) :
    (catalog.step policy handle).catalog.liveCount + (catalog.step policy handle).removed.length =
      catalog.liveCount := by
  cases found : catalog.declaration? handle with
  | none =>
      rw [step_of_absent found]
      rfl
  | some declaration =>
      cases result : (declaration.settle catalog.lookup? policy handle).result with
      | ok settled =>
          rw [step_of_ok found result]
          exact liveCount_update _ _ _
      | error failure =>
          rw [step_of_error found result]
          exact liveCount_remove found

/-- The removals of a sweep account for every declaration that is no longer live. -/
theorem liveCount_sweep (policy : InterfacePolicy) (order : List Handle) (catalog : Catalog) :
    (catalog.sweep policy order).catalog.liveCount + (catalog.sweep policy order).removed.length =
      catalog.liveCount := by
  induction order generalizing catalog with
  | nil => rfl
  | cons handle rest inductionHypothesis =>
      have first := liveCount_step catalog policy handle
      have later := inductionHypothesis (catalog.step policy handle).catalog
      simp only [sweep, Progress.andThen, List.length_append]
      omega

/-- A pass that removes something leaves fewer live declarations. -/
theorem liveCount_pass_lt {catalog : Catalog} {policy : InterfacePolicy}
    (removed : (catalog.pass policy).removed ≠ []) :
    (catalog.pass policy).catalog.liveCount < catalog.liveCount := by
  have balance := liveCount_sweep policy catalog.visitOrder catalog
  have positive := List.length_pos_iff.mpr removed
  unfold pass at positive ⊢
  omega

end Catalog

end TypeGraph
