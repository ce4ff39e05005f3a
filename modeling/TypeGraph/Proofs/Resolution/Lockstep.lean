import TypeGraph.Proofs.Catalog.Insertion
import TypeGraph.Proofs.Catalog.Persistence

/-!
This file compares the resolutions of two catalogs that differ only within their declarations. When
related declarations settle alike, both runs visit, keep and remove the same handles in lockstep.
-/

namespace TypeGraph

/-- Results are alike when both are the same failure, or when both hold related declarations and
count the same number of dropped interfaces. -/
inductive Settlement.AlikeResults (related : Declaration → Declaration → Prop) :
    Except Failure (Declaration × Tally) → Except Failure (Declaration × Tally) → Prop where
  | error (cause : Failure) : AlikeResults related (.error cause) (.error cause)
  | ok {first second : Declaration} {firstTally secondTally : Tally}
      (declarations : related first second)
      (dropped : firstTally.droppedInterfaces = secondTally.droppedInterfaces) :
      AlikeResults related (.ok (first, firstTally)) (.ok (second, secondTally))

/-- Settlements are alike in their results and in their diagnostics. -/
structure Settlement.Alike (related : Declaration → Declaration → Prop)
    (diagnosed : List Diagnostic → List Diagnostic → Prop) (first second : Settlement) : Prop where
  result : AlikeResults related first.result second.result
  diagnosed : diagnosed (Event.diagnostics first.events) (Event.diagnostics second.events)

theorem Settlement.Alike.refl {related : Declaration → Declaration → Prop}
    {diagnosed : List Diagnostic → List Diagnostic → Prop}
    (same : ∀ declaration, related declaration declaration)
    (quiet : ∀ diagnostics, diagnosed diagnostics diagnostics) (settlement : Settlement) :
    Settlement.Alike related diagnosed settlement settlement := by
  refine ⟨?_, quiet _⟩
  cases settlement.result with
  | error failure => exact .error failure
  | ok settled => exact .ok (same settled.1) rfl

section Relations

variable (related : Handle → Declaration → Declaration → Prop)
  (diagnosed : List Diagnostic → List Diagnostic → Prop)

/-- Related declarations stay in lockstep when they are visited under one name, fail together and
settle to related declarations. -/
structure Lockstep : Prop where
  refl : ∀ handle declaration, related handle declaration declaration
  sameName : ∀ {handle first second}, related handle first second →
    Declaration.SameName first second
  sameKind : ∀ {handle first second}, related handle first second →
    second.isClass = first.isClass
  settle : ∀ {handle first second}, related handle first second → ∀ lookup policy,
    Settlement.Alike (related handle) diagnosed (first.settle lookup policy handle)
      (second.settle lookup policy handle)
  quiet : ∀ diagnostics, diagnosed diagnostics diagnostics
  append : ∀ {first second firstLater secondLater}, diagnosed first second →
    diagnosed firstLater secondLater → diagnosed (first ++ firstLater) (second ++ secondLater)

/-- Catalogs are alike when they differ only within related declarations at the same handles. -/
structure Catalog.Alike (first second : Catalog) : Prop where
  packages : first.packages = second.packages
  registry : first.registry = second.registry
  size : first.arena.size = second.arena.size
  places : ∀ handle,
    Option.Rel (related handle) (first.declaration? handle) (second.declaration? handle)

/-- Progress is alike when the same declarations were removed on the way to alike catalogs. -/
structure Progress.Alike (first second : Progress) : Prop where
  catalog : first.catalog.Alike related second.catalog
  removed : first.removed = second.removed
  dropped : first.tally.droppedInterfaces = second.tally.droppedInterfaces
  diagnosed : diagnosed (Event.diagnostics first.events) (Event.diagnostics second.events)

/-- Runs are alike when they also took as many passes and ended for the same reason. -/
structure Run.Alike (first second : Run) : Prop where
  catalog : first.catalog.Alike related second.catalog
  passes : first.summary.passes = second.summary.passes
  removed : first.summary.removed = second.summary.removed
  dropped : first.summary.tally.droppedInterfaces = second.summary.tally.droppedInterfaces
  converged : first.summary.converged = second.summary.converged
  diagnosed : diagnosed (Notice.diagnostics first.notices) (Notice.diagnostics second.notices)

end Relations

namespace Catalog

namespace Alike

variable {related : Handle → Declaration → Declaration → Prop} {first second : Catalog}

theorem lookup? (alike : first.Alike related second) : first.lookup? = second.lookup? :=
  lookup?_congr alike.packages alike.registry

theorem handles (alike : first.Alike related second) : first.handles = second.handles := by
  rw [Catalog.handles, Catalog.handles, alike.packages]

/-- A place is empty in both catalogs, or it holds related declarations. -/
theorem places_cases (alike : first.Alike related second) (handle : Handle) :
    (first.declaration? handle = none ∧ second.declaration? handle = none) ∨
      ∃ before after, first.declaration? handle = some before ∧
        second.declaration? handle = some after ∧ related handle before after := by
  have place := alike.places handle
  generalize first.declaration? handle = firstPlace at place ⊢
  generalize second.declaration? handle = secondPlace at place ⊢
  cases place with
  | none => exact .inl ⟨rfl, rfl⟩
  | some declarations => exact .inr ⟨_, _, rfl, rfl, declarations⟩

/-- Two related declarations may be put in the same place. -/
theorem update (alike : first.Alike related second) (handle : Handle)
    {firstChange secondChange : Declaration → Declaration}
    (changes : ∀ before after, related handle before after →
      related handle (firstChange before) (secondChange after)) :
    (first.update handle firstChange).Alike related (second.update handle secondChange) where
  packages := by simpa using alike.packages
  registry := by simpa using alike.registry
  size := by simpa using alike.size
  places := by
    intro other
    rw [declaration?_update, declaration?_update]
    by_cases same : other = handle
    · subst same
      rw [if_pos rfl, if_pos rfl]
      rcases alike.places_cases other with ⟨isFirst, isSecond⟩ |
        ⟨before, after, isFirst, isSecond, declarations⟩
      · rw [isFirst, isSecond]
        exact .none
      · rw [isFirst, isSecond]
        exact .some (changes before after declarations)
    · rw [if_neg same, if_neg same]
      exact alike.places other

end Alike

end Catalog

namespace Lockstep

variable {related : Handle → Declaration → Declaration → Prop}
  {diagnosed : List Diagnostic → List Diagnostic → Prop} {first second : Catalog}

/-- Both catalogs erase the same entry, since related declarations have one name. -/
theorem remove (lockstep : Lockstep related diagnosed) (alike : first.Alike related second)
    (handle : Handle) : (first.remove handle).Alike related (second.remove handle) := by
  have indexes : (first.remove handle).packages = (second.remove handle).packages ∧
      (first.remove handle).registry = (second.remove handle).registry := by
    rw [Catalog.remove, Catalog.remove]
    rcases alike.places_cases handle with ⟨isFirst, isSecond⟩ |
      ⟨before, after, isFirst, isSecond, declarations⟩
    · rw [isFirst, isSecond]
      exact ⟨alike.packages, alike.registry⟩
    · obtain ⟨name, package⟩ := lockstep.sameName declarations
      simp only [isFirst, isSecond, name, package, alike.packages, alike.registry, and_self]
  constructor
  case packages => exact indexes.1
  case registry => exact indexes.2
  case size => simpa using alike.size
  case places =>
    intro other
    rw [Catalog.declaration?_remove, Catalog.declaration?_remove]
    split
    next => exact .none
    next => exact alike.places other

theorem andThen (lockstep : Lockstep related diagnosed)
    {first second firstLater secondLater : Progress}
    (earlier : first.Alike related diagnosed second)
    (later : firstLater.Alike related diagnosed secondLater) :
    (first.andThen firstLater).Alike related diagnosed (second.andThen secondLater) where
  catalog := later.catalog
  removed := congrArg₂ _ earlier.removed later.removed
  dropped := congrArg₂ _ earlier.dropped later.dropped
  diagnosed := by
    simp only [Progress.andThen, Event.diagnostics_append]
    exact lockstep.append earlier.diagnosed later.diagnosed

/-- One step keeps both catalogs alike: it passes over, settles or removes the same declaration. -/
theorem step (lockstep : Lockstep related diagnosed) (alike : first.Alike related second)
    (policy : InterfacePolicy) (handle : Handle) :
    (first.step policy handle).Alike related diagnosed (second.step policy handle) := by
  rcases alike.places_cases handle with ⟨isFirst, isSecond⟩ |
    ⟨before, after, isFirst, isSecond, declarations⟩
  · rw [Catalog.step_of_absent isFirst, Catalog.step_of_absent isSecond]
    exact ⟨alike, rfl, rfl, lockstep.quiet _⟩
  · obtain ⟨results, diagnostics⟩ := lockstep.settle declarations first.lookup? policy
    generalize firstResult : (before.settle first.lookup? policy handle).result = result at results
    generalize secondResult : (after.settle first.lookup? policy handle).result = other at results
    rw [alike.lookup?] at secondResult
    cases results with
    | error failure =>
        rw [Catalog.step_of_error isFirst firstResult, Catalog.step_of_error isSecond secondResult,
          Declaration.qualifiedName, Declaration.qualifiedName,
          (lockstep.sameName declarations).1, (lockstep.sameName declarations).2]
        refine ⟨lockstep.remove alike handle, rfl, rfl, ?_⟩
        simp only [Event.diagnostics_append, ← alike.lookup?]
        exact lockstep.append diagnostics (lockstep.quiet _)
    | ok settled dropped =>
        rw [Catalog.step_of_ok isFirst firstResult, Catalog.step_of_ok isSecond secondResult,
          ← alike.lookup?]
        exact ⟨alike.update handle fun _ _ _ => settled, rfl, dropped, diagnostics⟩

theorem sweep (lockstep : Lockstep related diagnosed) (alike : first.Alike related second)
    (policy : InterfacePolicy) (order : List Handle) :
    (first.sweep policy order).Alike related diagnosed (second.sweep policy order) := by
  induction order generalizing first second with
  | nil => exact ⟨alike, rfl, rfl, lockstep.quiet _⟩
  | cons handle rest inductionHypothesis =>
      have here := lockstep.step alike policy handle
      exact lockstep.andThen here (inductionHypothesis here.catalog)

/-- Both catalogs are swept in the same order. -/
theorem visitOrder_eq (lockstep : Lockstep related diagnosed) (alike : first.Alike related second) :
    first.visitOrder = second.visitOrder := by
  have sameKind : ∀ handle, (first.declaration? handle).any Declaration.isClass =
      (second.declaration? handle).any Declaration.isClass ∧
      (first.declaration? handle).any Declaration.isInterface =
        (second.declaration? handle).any Declaration.isInterface := by
    intro handle
    rcases alike.places_cases handle with ⟨isFirst, isSecond⟩ |
      ⟨before, after, isFirst, isSecond, declarations⟩
    · rw [isFirst, isSecond]
      exact ⟨rfl, rfl⟩
    · have same := lockstep.sameKind declarations
      simp only [isFirst, isSecond, Option.any_some, Declaration.isInterface, same, and_self]
  simp only [Catalog.visitOrder_eq, alike.handles, fun handle => (sameKind handle).1,
    fun handle => (sameKind handle).2]

/-- Catalogs that are alike stay alike through a pass, since they visit in the same order. -/
theorem pass (lockstep : Lockstep related diagnosed) (alike : first.Alike related second)
    (policy : InterfacePolicy) :
    (first.pass policy).Alike related diagnosed (second.pass policy) := by
  rw [Catalog.pass, Catalog.pass, lockstep.visitOrder_eq alike]
  exact lockstep.sweep alike policy _

/-- Catalogs that are alike go through the same number of passes. -/
theorem repeatPasses (lockstep : Lockstep related diagnosed) (alike : first.Alike related second)
    (options : Options) (done : Nat) :
    (first.repeatPasses options done).Alike related diagnosed
      (second.repeatPasses options done) := by
  induction first, done using Catalog.repeatPasses.induct options generalizing second
  case case1 first done exhausted =>
    rw [Catalog.repeatPasses_of_isExhausted first exhausted,
      Catalog.repeatPasses_of_isExhausted second exhausted]
    exact ⟨alike, rfl, rfl, rfl, rfl, lockstep.quiet _⟩
  case case2 first done unexhausted progress stable =>
    have passes := lockstep.pass alike options.policy
    rw [Catalog.repeatPasses_of_stable (by simpa using unexhausted) stable,
      Catalog.repeatPasses_of_stable (by simpa using unexhausted) (passes.removed ▸ stable)]
    refine ⟨passes.catalog, rfl, rfl, passes.dropped, rfl, ?_⟩
    simp only [Catalog.diagnostics_passNotices]
    exact passes.diagnosed
  case case3 first done unexhausted progress unstable inductionHypothesis =>
    have passes := lockstep.pass alike options.policy
    have later := inductionHypothesis passes.catalog
    have more : options.isExhausted done = false := by simpa using unexhausted
    have firstRun : first.repeatPasses options done = _ :=
      Catalog.repeatPasses_of_unstable more unstable
    have secondRun : second.repeatPasses options done = _ :=
      Catalog.repeatPasses_of_unstable more (passes.removed ▸ unstable)
    rw [firstRun, secondRun]
    refine ⟨later.catalog, later.passes, congrArg₂ _ passes.removed later.removed,
      congrArg₂ _ passes.dropped later.dropped, later.converged, ?_⟩
    simp only [Run.after, Notice.diagnostics_append, Catalog.diagnostics_passNotices]
    exact lockstep.append passes.diagnosed later.diagnosed

/-- A declaration is registered in both catalogs, or both refuse it. -/
theorem registerAll (lockstep : Lockstep related diagnosed) (alike : first.Alike related second)
    (table : List StandardDeclaration) :
    (first.registerAll table).catalog.Alike related (second.registerAll table).catalog ∧
      (first.registerAll table).refusal = (second.registerAll table).refusal := by
  have next : first.nextHandle = second.nextHandle := congrArg Handle.mk alike.size
  induction table generalizing first second with
  | nil => exact ⟨alike, rfl⟩
  | cons standard rest inductionHypothesis =>
      simp only [Catalog.registerAll, Catalog.register, Catalog.registryWith, alike.registry, next,
        alike.packages]
      by_cases taken : (second.registry.any fun candidate =>
          candidate.name == standard.package &&
            (candidate.get? standard.declaration.name).isSome) = true
      · simp only [taken, if_true, and_true]
        exact alike
      · simp only [taken, Bool.false_eq_true, if_false]
        apply inductionHypothesis
        · refine ⟨rfl, rfl, ?_, ?_⟩
          · simp [Catalog.allot, alike.size]
          · intro handle
            rw [Catalog.declaration?_allot, Catalog.declaration?_allot, next]
            split
            next => exact .some (lockstep.refl _ _)
            next => exact alike.places handle
        · simp [Catalog.nextHandle, Catalog.allot, alike.size]

/-- Catalogs that are alike are prepared alike, with the same notices. -/
theorem prepare (lockstep : Lockstep related diagnosed) (alike : first.Alike related second)
    (options : Options) :
    (first.prepare options).1.Alike related (second.prepare options).1 ∧
      (first.prepare options).2 = (second.prepare options).2 := by
  obtain ⟨installed, sameRefusal⟩ := lockstep.registerAll alike StandardDeclaration.table
  have sameRegistry : first.hasRegistry = second.hasRegistry := by
    rw [Catalog.hasRegistry, Catalog.hasRegistry, alike.registry]
  simp only [Catalog.prepare, sameRegistry, Catalog.installStandard, sameRefusal]
  split
  next =>
    split
    next => exact ⟨installed, rfl⟩
    next => exact ⟨installed, rfl⟩
  next => exact ⟨alike, rfl⟩

/-- Resolutions of alike catalogs are alike. -/
theorem resolve (lockstep : Lockstep related diagnosed) (alike : first.Alike related second)
    (options : Options) :
    (first.resolve options).Alike related diagnosed (second.resolve options) := by
  obtain ⟨prepared, sameNotices⟩ := lockstep.prepare alike options
  have run := lockstep.repeatPasses prepared options 0
  refine ⟨run.catalog, run.passes, run.removed, run.dropped, run.converged, ?_⟩
  rw [Catalog.diagnostics_resolve, Catalog.diagnostics_resolve, sameNotices]
  exact lockstep.append (lockstep.quiet _) run.diagnosed

end Lockstep

end TypeGraph
