import TypeGraph.Proofs.Resolution.Absorption
import TypeGraph.Resolution.Run

/-!
This file says what one step of a resolution can do and carries properties of catalogs from steps
to whole runs. A run that converges ends with a pass in which every visited declaration stood.
-/

namespace TypeGraph.Catalog

variable {catalog : Catalog} {policy : InterfacePolicy} {handle : Handle} {options : Options}

/-- A visit fills the declaration if it stands. -/
def filled (catalog : Catalog) (handle : Handle) (declaration : Declaration) : Catalog :=
  catalog.update handle fun _ => declaration.fill catalog.lookup? handle

/-- A step passes over an empty place, fills a declaration that stands or removes one that falls. -/
inductive Steps (catalog : Catalog) (policy : InterfacePolicy) (handle : Handle) :
    Catalog → List String → Prop where
  | absent (empty : catalog.declaration? handle = none) : Steps catalog policy handle catalog []
  | filled (declaration : Declaration) (found : catalog.declaration? handle = some declaration)
      (stands : declaration.Stands catalog.lookup? policy handle) :
      Steps catalog policy handle (catalog.filled handle declaration) []
  | removed (declaration : Declaration) (found : catalog.declaration? handle = some declaration)
      (falls : ¬ declaration.Stands catalog.lookup? policy handle) :
      Steps catalog policy handle (catalog.remove handle) [declaration.qualifiedName]

/-- Every step has one of the three outcomes. -/
theorem step_steps (catalog : Catalog) (policy : InterfacePolicy) (handle : Handle) :
    Steps catalog policy handle (catalog.step policy handle).catalog
      (catalog.step policy handle).removed := by
  cases found : catalog.declaration? handle with
  | none =>
      rw [step_of_absent found]
      exact .absent found
  | some declaration =>
      cases result : (declaration.settle catalog.lookup? policy handle).result with
      | ok settled =>
          obtain ⟨stands, same⟩ := Declaration.settle_result_eq_ok_iff.mp ⟨settled.2, result⟩
          rw [step_of_ok found result, same]
          exact .filled declaration found stands
      | error failure =>
          have falls : ¬ declaration.Stands catalog.lookup? policy handle := by
            intro stands
            obtain ⟨tally, ok⟩ := Declaration.settle_result_eq_ok_iff.mpr ⟨stands, rfl⟩
            rw [result] at ok
            cases ok
          rw [step_of_error found result]
          exact .removed declaration found falls

/-- A visit leaves the catalog alone or fills a declaration that stands. -/
theorem visit_cases (catalog : Catalog) (policy : InterfacePolicy) (handle : Handle) :
    (catalog.visit policy handle).catalog = catalog ∨
      ∃ declaration, catalog.declaration? handle = some declaration ∧
        declaration.Stands catalog.lookup? policy handle ∧
        (catalog.visit policy handle).catalog = catalog.filled handle declaration := by
  cases found : catalog.declaration? handle with
  | none => exact .inl (by simp [visit, found])
  | some declaration =>
      cases result : (declaration.settle catalog.lookup? policy handle).result with
      | error failure => exact .inl (by simp [visit, found, result])
      | ok settled =>
          obtain ⟨stands, same⟩ := Declaration.settle_result_eq_ok_iff.mp ⟨settled.2, result⟩
          exact .inr ⟨declaration, rfl, stands, by simp [visit, found, result, same, filled]⟩

/-- A visit that succeeds fills the declaration that it finds. -/
theorem exists_stands_of_visit {catalog : Catalog} {policy : InterfacePolicy} {handle : Handle}
    {tally : Tally} {settled : Declaration}
    (succeeds : (catalog.visit policy handle).result = .ok tally)
    (found : (catalog.visit policy handle).catalog.declaration? handle = some settled) :
    ∃ declaration, catalog.declaration? handle = some declaration ∧
      declaration.Stands catalog.lookup? policy handle ∧
      settled = declaration.fill catalog.lookup? handle := by
  cases before : catalog.declaration? handle with
  | none => simp [visit, before] at found
  | some declaration =>
      simp only [visit, before] at succeeds found
      cases result : (declaration.settle catalog.lookup? policy handle).result with
      | error failure => simp [result] at succeeds
      | ok pair =>
          simp only [result, declaration?_update, if_pos, before, Option.map_some] at found
          obtain ⟨stands, same⟩ := Declaration.settle_result_eq_ok_iff.mp ⟨pair.2, result⟩
          exact ⟨declaration, rfl, stands, (Option.some.inj found).symm.trans same⟩

/-! ### Filled places -/

@[simp] theorem packages_filled (catalog : Catalog) (handle : Handle) (declaration : Declaration) :
    (catalog.filled handle declaration).packages = catalog.packages :=
  packages_update catalog handle _

@[simp] theorem registry_filled (catalog : Catalog) (handle : Handle) (declaration : Declaration) :
    (catalog.filled handle declaration).registry = catalog.registry :=
  registry_update catalog handle _

/-- Names are looked up in packages and registry alone. -/
theorem lookup?_congr {first second : Catalog} (packages : first.packages = second.packages)
    (registry : first.registry = second.registry) : first.lookup? = second.lookup? := by
  funext qualified
  rw [lookup?, lookup?, packages, registry]

@[simp] theorem lookup?_filled (catalog : Catalog) (handle : Handle) (declaration : Declaration) :
    (catalog.filled handle declaration).lookup? = catalog.lookup? :=
  lookup?_congr (packages_filled _ _ _) (registry_filled _ _ _)

/-- Filling changes one place only. -/
theorem declaration?_filled {declaration : Declaration}
    (found : catalog.declaration? handle = some declaration) (other : Handle) :
    (catalog.filled handle declaration).declaration? other =
      if other = handle then some (declaration.fill catalog.lookup? handle)
      else catalog.declaration? other := by
  rw [filled, declaration?_update, found]
  rfl

/-- Filling keeps every handle as live as it was. -/
theorem isLive_filled {declaration : Declaration}
    (found : catalog.declaration? handle = some declaration) :
    (catalog.filled handle declaration).isLive = catalog.isLive := by
  funext other
  rw [isLive, isLive, declaration?_filled found]
  split
  next same => rw [same, found]; rfl
  next => rfl

/-- A removal takes the life of one handle only. -/
theorem isLive_remove (catalog : Catalog) (handle other : Handle) :
    (catalog.remove handle).isLive other = (catalog.isLive other && decide (other ≠ handle)) := by
  rw [isLive, isLive, declaration?_remove]
  by_cases same : other = handle <;> simp [same]

/-- A step changes no place but that of its handle. -/
theorem declaration?_step_of_ne {other : Handle} (different : other ≠ handle) :
    (catalog.step policy handle).catalog.declaration? other = catalog.declaration? other := by
  have steps := step_steps catalog policy handle
  generalize (catalog.step policy handle).catalog = later at steps ⊢
  generalize (catalog.step policy handle).removed = removed at steps
  cases steps with
  | absent => rfl
  | filled declaration found => rw [declaration?_filled found, if_neg different]
  | removed => rw [declaration?_remove, if_neg different]

/-! ### Invariants of runs -/

/-- The declarations of a catalog are the live ones among its listed handles. -/
theorem mem_declarations_iff {handle : Handle} {declaration : Declaration} :
    (handle, declaration) ∈ catalog.declarations ↔
      handle ∈ catalog.handles ∧ catalog.declaration? handle = some declaration := by
  simp only [declarations, List.mem_filterMap, Option.map_eq_some_iff, Prod.mk.injEq]
  constructor
  · intro declared
    obtain ⟨other, listed, found, isFound, rfl, rfl⟩ := declared
    exact ⟨listed, isFound⟩
  · intro live
    obtain ⟨listed, isFound⟩ := live
    exact ⟨handle, listed, declaration, isFound, rfl, rfl⟩

/-- Declarations that are kept by their content are listed by the handles that lead to them. -/
theorem map_fst_filter_declarations (catalog : Catalog) (keeps : Declaration → Bool) :
    (catalog.declarations.filter fun entry => keeps entry.2).map Prod.fst =
      catalog.handles.filter fun handle => (catalog.declaration? handle).any keeps := by
  rw [declarations]
  induction catalog.handles with
  | nil => rfl
  | cons handle rest inductionHypothesis =>
      cases found : catalog.declaration? handle with
      | none => simpa [found] using inductionHypothesis
      | some declaration =>
          cases kept : keeps declaration with
          | true => simpa [found, kept] using inductionHypothesis
          | false => simpa [found, kept] using inductionHypothesis

/-- The classes among the listed handles come before the interfaces. -/
theorem visitOrder_eq (catalog : Catalog) :
    catalog.visitOrder =
      (catalog.handles.filter fun handle =>
        (catalog.declaration? handle).any Declaration.isClass) ++
      (catalog.handles.filter fun handle =>
        (catalog.declaration? handle).any Declaration.isInterface) := by
  rw [visitOrder, List.map_append, map_fst_filter_declarations, map_fst_filter_declarations]

/-- A pass visits the live declarations of the packages. -/
theorem mem_visitOrder_iff {handle : Handle} :
    handle ∈ catalog.visitOrder ↔ handle ∈ catalog.handles ∧ catalog.isLive handle = true := by
  rw [visitOrder_eq, List.mem_append, List.mem_filter, List.mem_filter, ← and_or_left, isLive]
  apply and_congr_right
  intro _
  cases catalog.declaration? handle with
  | none => simp
  | some declaration => cases kind : declaration.isClass <;> simp [Declaration.isInterface, kind]

/-- What every step of a sweep preserves holds at its end. -/
theorem sweep_invariant {motive : Catalog → Prop} {order : List Handle}
    (step : ∀ handle ∈ order, ∀ catalog, motive catalog →
      motive (catalog.step policy handle).catalog)
    (holds : motive catalog) : motive (catalog.sweep policy order).catalog := by
  induction order generalizing catalog with
  | nil => exact holds
  | cons handle rest inductionHypothesis =>
      have first := step handle List.mem_cons_self catalog holds
      exact inductionHypothesis (fun other listed => step other (List.mem_cons_of_mem _ listed))
        first

/-- A run that has used up its limit stops with a warning. -/
theorem repeatPasses_of_isExhausted (catalog : Catalog) {done : Nat}
    (exhausted : options.isExhausted done = true) :
    catalog.repeatPasses options done =
      ⟨catalog, ⟨done, [], .zero, false⟩, [⟨.reported (.passLimit done), none⟩]⟩ := by
  rw [repeatPasses, if_pos exhausted]

/-- A pass that removes nothing is the last one. -/
theorem repeatPasses_of_stable {done : Nat} (unexhausted : options.isExhausted done = false)
    (stable : (catalog.pass options.policy).removed = []) :
    catalog.repeatPasses options done =
      ⟨(catalog.pass options.policy).catalog,
        ⟨done + 1, [], (catalog.pass options.policy).tally, true⟩,
        passNotices (done + 1) (catalog.pass options.policy)⟩ := by
  rw [repeatPasses, if_neg (by simp [unexhausted])]
  exact dif_pos stable

/-- A pass that removes something is followed by another run of passes. -/
theorem repeatPasses_of_unstable {done : Nat} (unexhausted : options.isExhausted done = false)
    (unstable : (catalog.pass options.policy).removed ≠ []) :
    catalog.repeatPasses options done =
      ((catalog.pass options.policy).catalog.repeatPasses options (done + 1)).after
        (catalog.pass options.policy) (passNotices (done + 1) (catalog.pass options.policy)) := by
  rw [repeatPasses, if_neg (by simp [unexhausted])]
  exact dif_neg unstable

/-- The number of a pass shows in its notices, not in its diagnostics. -/
theorem diagnostics_passNotices (number : Nat) (progress : Progress) :
    Notice.diagnostics (passNotices number progress) = Event.diagnostics progress.events := by
  have events : (passNotices number progress).map Notice.event =
      progress.events ++ [Event.passFinished number progress.removed.length] := by
    simp [passNotices, Function.comp_def]
  rw [Notice.diagnostics, events, Event.diagnostics_append]
  exact List.append_nil _

/-- The end of a run is no diagnostic. -/
theorem diagnostics_closingNotices (run : Run) : Notice.diagnostics (closingNotices run) = [] := by
  unfold closingNotices
  split <;> rfl

/-- A run works on the prepared catalog. -/
theorem catalog_resolve (catalog : Catalog) (options : Options) :
    (catalog.resolve options).catalog =
      ((catalog.prepare options).1.repeatPasses options 0).catalog := rfl

theorem summary_resolve (catalog : Catalog) (options : Options) :
    (catalog.resolve options).summary =
      ((catalog.prepare options).1.repeatPasses options 0).summary := rfl

/-- Preparation registers the standard declarations unless a registry is there. -/
theorem fst_prepare (catalog : Catalog) (options : Options) :
    (catalog.prepare options).1 =
      if options.installsStandard && !catalog.hasRegistry then catalog.installStandard.catalog
      else catalog := by
  unfold prepare
  split
  next => dsimp only; split <;> rfl
  next => rfl

/-- A resolution reports what its preparation and its passes report. -/
theorem diagnostics_resolve (catalog : Catalog) (options : Options) :
    Notice.diagnostics (catalog.resolve options).notices =
      Notice.diagnostics (catalog.prepare options).2 ++
        Notice.diagnostics ((catalog.prepare options).1.repeatPasses options 0).notices := by
  simp only [resolve, Notice.diagnostics_append, diagnostics_closingNotices, List.append_nil]

/-- What every pass preserves holds at the end of a run, and a converged run ends with a pass that
removed nothing. -/
theorem repeatPasses_invariant {motive : Catalog → Prop}
    (pass : ∀ catalog, motive catalog → motive (catalog.pass options.policy).catalog)
    (holds : motive catalog) (done : Nat) :
    motive (catalog.repeatPasses options done).catalog ∧
      ((catalog.repeatPasses options done).summary.converged = true →
        ∃ before, motive before ∧ (before.pass options.policy).removed = [] ∧
          (catalog.repeatPasses options done).catalog = (before.pass options.policy).catalog) := by
  induction catalog, done using repeatPasses.induct options with
  | case1 catalog done exhausted =>
      rw [repeatPasses_of_isExhausted catalog exhausted]
      simpa using holds
  | case2 catalog done unexhausted progress stable =>
      rw [repeatPasses_of_stable (by simpa using unexhausted) stable]
      exact ⟨pass catalog holds, fun _ => ⟨catalog, holds, stable, rfl⟩⟩
  | case3 catalog done unexhausted progress unstable inductionHypothesis =>
      rw [repeatPasses_of_unstable (by simpa using unexhausted) unstable]
      exact inductionHypothesis (pass catalog holds)

/-- A run without a limit of passes converges. -/
theorem repeatPasses_converged (unlimited : options.passLimit = none) (catalog : Catalog)
    (done : Nat) : (catalog.repeatPasses options done).summary.converged = true := by
  have unexhausted : ∀ done, options.isExhausted done = false := by
    intro done
    simp [Options.isExhausted, unlimited]
  induction catalog, done using repeatPasses.induct options with
  | case1 catalog done exhausted =>
      rw [unexhausted] at exhausted
      cases exhausted
  | case2 catalog done _ progress stable => rw [repeatPasses_of_stable (unexhausted done) stable]
  | case3 catalog done _ progress unstable inductionHypothesis =>
      rw [repeatPasses_of_unstable (unexhausted done) unstable]
      exact inductionHypothesis

/-! ### Quiet passes -/

/-- A sweep that removes nothing met only declarations that stand, and it filled each of them. -/
theorem sweep_quiet {order : List Handle} (quiet : (catalog.sweep policy order).removed = []) :
    (catalog.sweep policy order).catalog.packages = catalog.packages ∧
      (catalog.sweep policy order).catalog.registry = catalog.registry ∧
      ∀ handle declaration, catalog.declaration? handle = some declaration →
        if handle ∈ order then
          declaration.Stands catalog.lookup? policy handle ∧
            (catalog.sweep policy order).catalog.declaration? handle =
              some (declaration.fill catalog.lookup? handle)
        else (catalog.sweep policy order).catalog.declaration? handle = some declaration := by
  induction order generalizing catalog with
  | nil => exact ⟨rfl, rfl, fun handle declaration found => by simpa [sweep] using found⟩
  | cons first rest inductionHypothesis =>
      obtain ⟨noneFirst, noneLater⟩ := List.append_eq_nil_iff.mp quiet
      obtain ⟨packages, registry, later⟩ := inductionHypothesis noneLater
      have steps := step_steps catalog policy first
      simp only [sweep, Progress.andThen]
      rw [noneFirst] at steps
      generalize (catalog.step policy first).catalog = middle at *
      cases steps with
      | absent empty =>
          refine ⟨packages, registry, ?_⟩
          intro handle declaration found
          have different : handle ≠ first := by
            intro same
            subst same
            rw [empty] at found
            cases found
          simpa only [List.mem_cons, different, false_or] using later handle declaration found
      | filled original isOriginal stands =>
          rw [packages_filled] at packages
          rw [registry_filled] at registry
          rw [lookup?_filled] at later
          refine ⟨packages, registry, ?_⟩
          intro handle declaration found
          have place := declaration?_filled isOriginal handle
          by_cases same : handle = first
          · subst same
            obtain rfl : original = declaration :=
              Option.some.inj (isOriginal.symm.trans found)
            rw [if_pos rfl] at place
            have final := later handle _ place
            rw [Declaration.fill_fill (.refl _)] at final
            rw [if_pos List.mem_cons_self]
            refine ⟨stands, ?_⟩
            split at final
            next => exact final.2
            next => exact final
          · rw [if_neg same, found] at place
            simpa only [List.mem_cons, same, false_or] using later handle declaration place

end TypeGraph.Catalog
