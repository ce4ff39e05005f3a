import TypeGraph.Proofs.Resolution.Passes

/-!
This file carries properties of catalogs through insertions, removals and resolutions. A property
persists when single changes of declarations keep it, and then every run keeps it.
-/

namespace TypeGraph

/-- A declaration that is not renamed stays in its package under its name. -/
def Declaration.SameName (before after : Declaration) : Prop :=
  after.name = before.name ∧ after.package = before.package

namespace Catalog

/-- A property persists when no removal, no allowed change of a declaration and no insertion of an
insertable one breaks it. -/
structure Persists (motive : Catalog → Prop) (insertable : Declaration → Prop)
    (allowed : Declaration → Declaration → Prop) : Prop where
  standard : ∀ standard ∈ StandardDeclaration.table, insertable standard.declaration
  fills : ∀ lookup handle declaration, allowed declaration (declaration.fill lookup handle)
  addPackage : ∀ {catalog larger name}, motive catalog →
    catalog.addPackage name = .ok larger → motive larger
  declare : ∀ {catalog larger handle package declaration}, motive catalog →
    insertable declaration → catalog.declare package declaration = .ok (handle, larger) →
      motive larger
  register : ∀ {catalog larger handle package declaration}, motive catalog →
    insertable declaration → catalog.register package declaration = .ok (handle, larger) →
      motive larger
  remove : ∀ {catalog} handle, motive catalog → motive (catalog.remove handle)
  update : ∀ {catalog} handle change, motive catalog →
    (∀ declaration, catalog.declaration? handle = some declaration →
      allowed declaration (change declaration)) → motive (catalog.update handle change)

namespace Persists

variable {motive : Catalog → Prop} {insertable : Declaration → Prop}
  {allowed : Declaration → Declaration → Prop} {catalog : Catalog}

theorem filled (persists : Persists motive insertable allowed) (holds : motive catalog)
    (handle : Handle) {declaration : Declaration}
    (found : catalog.declaration? handle = some declaration) :
    motive (catalog.filled handle declaration) := by
  refine persists.update handle _ holds ?_
  intro other isOther
  obtain rfl : declaration = other := Option.some.inj (found.symm.trans isOther)
  exact persists.fills _ handle declaration

/-- What persists survives the registration of a table, finished or broken off. -/
theorem registerAll (persists : Persists motive insertable allowed) (holds : motive catalog)
    {table : List StandardDeclaration}
    (insertables : ∀ standard ∈ table, insertable standard.declaration) :
    motive (catalog.registerAll table).catalog := by
  induction table generalizing catalog with
  | nil => exact holds
  | cons standard rest inductionHypothesis =>
      obtain ⟨first, others⟩ := List.forall_mem_cons.mp insertables
      unfold Catalog.registerAll
      split
      next added => exact inductionHypothesis (persists.register holds first added) others
      next => exact holds

theorem installStandard (persists : Persists motive insertable allowed) (holds : motive catalog) :
    motive catalog.installStandard.catalog :=
  persists.registerAll holds persists.standard

/-- A visit updates one declaration at most, by filling it. -/
theorem visit (persists : Persists motive insertable allowed) (holds : motive catalog)
    (policy : InterfacePolicy) (handle : Handle) :
    motive (catalog.visit policy handle).catalog := by
  rcases visit_cases catalog policy handle with same | ⟨declaration, found, -, same⟩
  · rw [same]
    exact holds
  · rw [same]
    exact persists.filled holds handle found

/-- A step updates, removes or does nothing. -/
theorem step (persists : Persists motive insertable allowed) (holds : motive catalog)
    (policy : InterfacePolicy) (handle : Handle) :
    motive (catalog.step policy handle).catalog := by
  have steps := step_steps catalog policy handle
  generalize (catalog.step policy handle).catalog = later at steps ⊢
  generalize (catalog.step policy handle).removed = removed at steps
  cases steps with
  | absent => exact holds
  | filled declaration found => exact persists.filled holds handle found
  | removed => exact persists.remove handle holds

theorem pass (persists : Persists motive insertable allowed) (holds : motive catalog)
    (policy : InterfacePolicy) : motive (catalog.pass policy).catalog :=
  sweep_invariant (fun handle _ _ before => persists.step before policy handle) holds

theorem prepare (persists : Persists motive insertable allowed) (holds : motive catalog)
    (options : Options) : motive (catalog.prepare options).1 := by
  rw [fst_prepare]
  split
  next => exact persists.installStandard holds
  next => exact holds

/-- What persists holds after a whole run, by induction over its passes. -/
theorem resolve (persists : Persists motive insertable allowed) (holds : motive catalog)
    (options : Options) : motive (catalog.resolve options).catalog := by
  have passes : ∀ catalog, motive catalog → motive (catalog.pass options.policy).catalog :=
    fun _ before => persists.pass before options.policy
  rw [catalog_resolve]
  exact (repeatPasses_invariant passes (persists.prepare holds options) 0).1

end Persists

end Catalog

end TypeGraph
