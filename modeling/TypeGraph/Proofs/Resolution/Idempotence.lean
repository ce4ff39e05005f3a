import TypeGraph.Proofs.Catalog.Separation
import TypeGraph.Proofs.Resolution.Lossless

/-!
This file shows that a resolution of a resolved catalog changes nothing. The last pass of a run that
converged leaves every declaration as a fresh pass would leave it, also under stale package entries.
-/

namespace TypeGraph.Catalog

variable {catalog : Catalog} {policy : InterfacePolicy} {handle : Handle} {options : Options}

/-- A declaration that is replaced by itself leaves the catalog as it was. -/
theorem update_const_self {declaration : Declaration}
    (found : catalog.declaration? handle = some declaration) :
    catalog.update handle (fun _ => declaration) = catalog := by
  apply ext_declaration? (packages_update _ _ _) (registry_update _ _ _) (size_update _ _ _)
  intro other
  rw [declaration?_update]
  split
  next here =>
    rw [here, found]
    rfl
  next => rfl

/-- A declaration is at rest when settling it gives it back in silence. -/
def IsAtRest (catalog : Catalog) (policy : InterfacePolicy) (handle : Handle) : Prop :=
  ∀ declaration, catalog.declaration? handle = some declaration →
    declaration.settle catalog.lookup? policy handle = ⟨[], .ok (declaration, .zero)⟩

theorem IsAtRest.step_eq (rests : catalog.IsAtRest policy handle) :
    catalog.step policy handle = ⟨catalog, [], .zero, []⟩ := by
  cases found : catalog.declaration? handle with
  | none => exact step_of_absent found
  | some declaration =>
      have settled := rests declaration found
      rw [step_of_ok found (congrArg Settlement.result settled), settled, update_const_self found]

/-- A sweep over declarations at rest does nothing. -/
theorem sweep_of_isAtRest {order : List Handle}
    (rest : ∀ handle ∈ order, catalog.IsAtRest policy handle) :
    catalog.sweep policy order = ⟨catalog, [], .zero, []⟩ := by
  induction order with
  | nil => rfl
  | cons handle later inductionHypothesis =>
      obtain ⟨first, others⟩ := List.forall_mem_cons.mp rest
      simp only [sweep, first.step_eq, inductionHypothesis others]
      rfl

/-- No step brings a removed declaration back. -/
theorem declaration?_step_of_none (absent : catalog.declaration? handle = none) (other : Handle) :
    (catalog.step policy other).catalog.declaration? handle = none := by
  have steps := step_steps catalog policy other
  generalize (catalog.step policy other).catalog = later at steps ⊢
  generalize (catalog.step policy other).removed = removed at steps
  cases steps with
  | absent => exact absent
  | filled declaration found =>
      rw [declaration?_filled found, if_neg, absent]
      rintro rfl
      rw [absent] at found
      cases found
  | removed =>
      rw [declaration?_remove, absent]
      exact ite_self none

theorem declaration?_pass_of_none (absent : catalog.declaration? handle = none) :
    (catalog.pass policy).catalog.declaration? handle = none :=
  sweep_invariant (motive := fun later => later.declaration? handle = none)
    (fun other _ _ before => declaration?_step_of_none before other) absent

/-- A pass that removes nothing leaves every declaration that it would visit again at rest. -/
theorem isAtRest_of_quiet_pass (quiet : (catalog.pass policy).removed = [])
    (visited : handle ∈ (catalog.pass policy).catalog.visitOrder) :
    (catalog.pass policy).catalog.IsAtRest policy handle := by
  obtain ⟨packages, registry, filled⟩ := sweep_quiet quiet
  have sameLookup : (catalog.pass policy).catalog.lookup? = catalog.lookup? :=
    lookup?_congr packages registry
  have sameHandles : (catalog.pass policy).catalog.handles = catalog.handles := by
    rw [handles, handles, pass, packages]
  intro declaration found
  obtain ⟨original, isOriginal⟩ : ∃ original, catalog.declaration? handle = some original := by
    cases before : catalog.declaration? handle with
    | none =>
        rw [declaration?_pass_of_none before] at found
        cases found
    | some original => exact ⟨original, rfl⟩
  have wasVisited : handle ∈ catalog.visitOrder := by
    refine mem_visitOrder_iff.mpr ⟨?_, by rw [isLive, isOriginal]; rfl⟩
    rw [← sameHandles]
    exact (mem_visitOrder_iff.mp visited).1
  have place := filled handle original isOriginal
  rw [if_pos wasVisited] at place
  obtain ⟨stands, isFilled⟩ := place
  obtain rfl : original.fill catalog.lookup? handle = declaration :=
    Option.some.inj (isFilled.symm.trans found)
  rw [sameLookup]
  exact stands.settle_fill

theorem pass_of_quiet_pass (quiet : (catalog.pass policy).removed = []) :
    (catalog.pass policy).catalog.pass policy = ⟨(catalog.pass policy).catalog, [], .zero, []⟩ :=
  sweep_of_isAtRest fun _ visited => isAtRest_of_quiet_pass quiet visited

/-- A run that converged was not stopped before its first pass. -/
theorem isExhausted_of_converged
    (converged : (catalog.repeatPasses options 0).summary.converged = true) :
    options.isExhausted 0 = false := by
  cases exhausted : options.isExhausted 0 with
  | false => rfl
  | true =>
      rw [repeatPasses_of_isExhausted catalog exhausted] at converged
      cases converged

/-- After any history and under any options, a run that converged can be repeated: the second run
takes one pass, counts and reports nothing and leaves the catalog exactly as it is. -/
theorem resolve_resolve {commands : List Command}
    (converged :
      ((Catalog.empty.performAll commands).resolve options).summary.converged = true) :
    let settled := ((Catalog.empty.performAll commands).resolve options).catalog
    settled.resolve options =
        ⟨settled, ⟨1, [], .zero, true⟩,
          [⟨.passFinished 1 0, some 1⟩, ⟨.finished 1 0 0 settled.entryCount, none⟩]⟩ ∧
      Notice.diagnostics (settled.resolve options).notices = [] := by
  intro settled
  have prepared : settled.prepare options = (settled, []) :=
    (performAll_isSeparated commands).prepare_resolve rfl
  rw [summary_resolve] at converged
  obtain ⟨before, -, quiet, same⟩ := (repeatPasses_invariant (motive := fun _ => True)
    (fun _ _ => trivial) trivial 0).2 converged
  have pass : settled.pass options.policy = ⟨settled, [], .zero, []⟩ := by
    have again := pass_of_quiet_pass quiet
    rwa [← same] at again
  have run : settled.repeatPasses options 0 =
      ⟨settled, ⟨1, [], .zero, true⟩, [⟨.passFinished 1 0, some 1⟩]⟩ := by
    rw [repeatPasses_of_stable (isExhausted_of_converged converged) (by rw [pass]), pass]
    rfl
  have whole : settled.resolve options =
      ⟨settled, ⟨1, [], .zero, true⟩,
        [⟨.passFinished 1 0, some 1⟩, ⟨.finished 1 0 0 settled.entryCount, none⟩]⟩ := by
    simp only [resolve, prepared, run]
    rfl
  refine ⟨whole, ?_⟩
  rw [whole]
  rfl

/-- In this history a superclass is renamed, so its entry goes stale, and its heir gets a member
that has no type; the heir loses that member when it is resolved. -/
def renamed : List Command :=
  [.addPackage "p", .declare "p" (.newClass "Base"),
    .declare "p" ((Declaration.newClass "Heir").withSupertype "p.Base"),
    .edit ⟨0⟩ fun declaration => { declaration with name := "Renamed" },
    .edit ⟨1⟩ fun declaration => declaration.withMember (.field ⟨"lost", .ofText "p.Renamed"⟩)]

/-- The first run leaves a settled catalog, so the second one has nothing to report. -/
theorem resolve_resolve_renamed :
    let settled := ((Catalog.empty.performAll renamed).resolve .standard).catalog
    ((Catalog.empty.performAll renamed).resolve .standard).summary.converged = true ∧
      settled.resolve .standard =
        ⟨settled, ⟨1, [], .zero, true⟩,
          [⟨.passFinished 1 0, some 1⟩, ⟨.finished 1 0 0 settled.entryCount, none⟩]⟩ ∧
      Notice.diagnostics (settled.resolve .standard).notices = [] := by
  have converged :
      ((Catalog.empty.performAll renamed).resolve .standard).summary.converged = true := by
    decide +kernel
  exact ⟨converged, resolve_resolve converged⟩

end TypeGraph.Catalog
