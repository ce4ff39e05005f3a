import Mathlib.Data.List.Iterate
import TypeGraph.Proofs.Catalog.Separation

/-!
This file takes runs apart. A run is a number of passes from stage to stage, and a pass goes through
moments in which one handle is visited. The removals of a run are the falls among its moments.
-/

namespace TypeGraph

/-- A moment of a run is a catalog together with the handle that is visited in it. -/
structure Moment where
  catalog : Catalog
  handle : Handle

namespace Moment

variable (policy : InterfacePolicy) (moment : Moment)

/-- The step of a moment visits its handle. -/
def step : Progress :=
  moment.catalog.step policy moment.handle

/-- A handle falls when it is live and its step does not leave it live. -/
def falls : Bool :=
  moment.catalog.isLive moment.handle && !(moment.step policy).catalog.isLive moment.handle

/-- A handle that falls is reported by the name that it has at this moment. -/
def name : String :=
  (moment.catalog.qualifiedName? moment.handle).getD ""

/-- A step removes a name exactly when its handle falls. -/
theorem removed_step :
    (moment.step policy).removed = if moment.falls policy then [moment.name] else [] := by
  obtain ⟨catalog, handle⟩ := moment
  have steps := Catalog.step_steps catalog policy handle
  unfold falls name step
  dsimp only
  generalize (catalog.step policy handle).catalog = later at steps ⊢
  generalize (catalog.step policy handle).removed = removed at steps ⊢
  cases steps with
  | absent empty => simp [Catalog.isLive, empty]
  | filled declaration found => simp [Catalog.isLive_filled found]
  | removed declaration found =>
      have emptied : (catalog.remove handle).declaration? handle = none := by
        rw [Catalog.declaration?_remove, if_pos rfl]
      simp [Catalog.isLive, Catalog.qualifiedName?, found, emptied]

/-- A step changes no handle from live to not live except its own when that falls. -/
theorem isLive_step (other : Handle) :
    (moment.step policy).catalog.isLive other =
      (moment.catalog.isLive other &&
        !(moment.falls policy && decide (other = moment.handle))) := by
  obtain ⟨catalog, handle⟩ := moment
  have steps := Catalog.step_steps catalog policy handle
  unfold falls step
  dsimp only
  generalize (catalog.step policy handle).catalog = later at steps ⊢
  generalize (catalog.step policy handle).removed = removed at steps
  cases steps with
  | absent => simp
  | filled declaration found => simp [Catalog.isLive_filled found]
  | removed declaration found =>
      by_cases same : other = handle
      · simp [Catalog.isLive_remove, same]
      · simp [Catalog.isLive_remove, same]

end Moment

namespace Catalog

variable {catalog : Catalog} {policy : InterfacePolicy} {handle : Handle} {options : Options}

/-- The moments of a sweep stand in the order of its handles. -/
def moments (catalog : Catalog) (policy : InterfacePolicy) : List Handle → List Moment
  | [] => []
  | handle :: rest =>
      ⟨catalog, handle⟩ :: (catalog.step policy handle).catalog.moments policy rest

/-- The falls of a pass are the moments whose handles it removes. -/
def falls (catalog : Catalog) (policy : InterfacePolicy) : List Moment :=
  (catalog.moments policy catalog.visitOrder).filter fun moment => moment.falls policy

/-- A sweep reports the names of the handles that fall, in the order of their falls. -/
theorem removed_sweep (catalog : Catalog) (policy : InterfacePolicy) (order : List Handle) :
    (catalog.sweep policy order).removed =
      ((catalog.moments policy order).filter fun moment => moment.falls policy).map
        Moment.name := by
  induction order generalizing catalog with
  | nil => rfl
  | cons handle rest inductionHypothesis =>
      have first : (catalog.step policy handle).removed = _ :=
        Moment.removed_step policy ⟨catalog, handle⟩
      simp only [sweep, Progress.andThen, moments, first, inductionHypothesis, List.filter_cons]
      split <;> rfl

/-- The removed names of a pass are those of its falls. -/
theorem removed_pass (catalog : Catalog) (policy : InterfacePolicy) :
    (catalog.pass policy).removed = (catalog.falls policy).map Moment.name :=
  removed_sweep catalog policy catalog.visitOrder

/-- A step lists no handle that was not listed. -/
theorem mem_handles_of_step {other : Handle}
    (listed : other ∈ (catalog.step policy handle).catalog.handles) : other ∈ catalog.handles := by
  have steps := step_steps catalog policy handle
  generalize (catalog.step policy handle).catalog = later at steps listed
  generalize (catalog.step policy handle).removed = removed at steps
  cases steps with
  | absent => exact listed
  | filled declaration =>
      rw [handles, packages_filled] at listed
      exact listed
  | removed declaration found =>
      rw [handles, remove, found] at listed
      exact mem_handles_of_eraseEntry listed

/-- A pass lists no new handle. -/
theorem mem_handles_of_pass {other : Handle}
    (listed : other ∈ (catalog.pass policy).catalog.handles) : other ∈ catalog.handles := by
  have step : ∀ handle ∈ catalog.visitOrder, ∀ later : Catalog,
      (∀ other ∈ later.handles, other ∈ catalog.handles) →
        ∀ other ∈ (later.step policy handle).catalog.handles, other ∈ catalog.handles :=
    fun _ _ _ before other inside => before other (mem_handles_of_step inside)
  exact sweep_invariant step (fun _ inside => inside) other listed

/-! ### Passes one after another -/

/-- The stages of a number of passes are the catalogs that the passes start from. -/
def stages (catalog : Catalog) (policy : InterfacePolicy) (count : Nat) : List Catalog :=
  List.iterate (fun stage => (stage.pass policy).catalog) catalog count

/-- The progress of a number of passes joins the progress of each. -/
def passes (catalog : Catalog) (policy : InterfacePolicy) : Nat → Progress
  | 0 => ⟨catalog, [], .zero, []⟩
  | count + 1 =>
      let first := catalog.pass policy
      first.andThen (first.catalog.passes policy count)

/-- The first stage is the catalog, and the others are those of the catalog behind the first pass.
-/
theorem stages_succ (catalog : Catalog) (policy : InterfacePolicy) (count : Nat) :
    catalog.stages policy (count + 1) =
      catalog :: (catalog.pass policy).catalog.stages policy count := rfl

@[simp] theorem length_stages (catalog : Catalog) (policy : InterfacePolicy) (count : Nat) :
    (catalog.stages policy count).length = count :=
  List.length_iterate _ _ _

/-- The passes remove what each stage removes, one after the other. -/
theorem removed_passes (catalog : Catalog) (policy : InterfacePolicy) (count : Nat) :
    (catalog.passes policy count).removed =
      (catalog.stages policy count).flatMap fun stage => (stage.pass policy).removed := by
  induction count generalizing catalog with
  | zero => rfl
  | succ count inductionHypothesis =>
      simp only [passes, Progress.andThen, stages_succ, List.flatMap_cons, inductionHypothesis]

/-- The last of several stages is the catalog that the passes before it come to. -/
theorem stages_succ_last (catalog : Catalog) (policy : InterfacePolicy) (count : Nat) :
    catalog.stages policy (count + 1) =
      catalog.stages policy count ++ [(catalog.passes policy count).catalog] := by
  induction count generalizing catalog with
  | zero => rfl
  | succ count inductionHypothesis =>
      rw [stages_succ, inductionHypothesis]
      rfl

/-- The last of several passes starts where the others end. -/
theorem passes_succ_last (catalog : Catalog) (policy : InterfacePolicy) (count : Nat) :
    (catalog.passes policy (count + 1)).catalog =
      ((catalog.passes policy count).catalog.pass policy).catalog := by
  induction count generalizing catalog with
  | zero => rfl
  | succ count inductionHypothesis =>
      rw [passes, Progress.andThen, inductionHypothesis, passes, Progress.andThen]

/-- Several passes keep a property that persists. -/
theorem Persists.passes {motive : Catalog → Prop} {insertable : Declaration → Prop}
    {allowed : Declaration → Declaration → Prop} (persists : Persists motive insertable allowed)
    (holds : motive catalog) (policy : InterfacePolicy) (count : Nat) :
    motive (catalog.passes policy count).catalog := by
  induction count generalizing catalog with
  | zero => exact holds
  | succ count inductionHypothesis =>
      simp only [passes, Progress.andThen]
      exact inductionHypothesis (persists.pass holds policy)

/-- The falls of several passes stand in the order of the passes. -/
def allFalls (catalog : Catalog) (policy : InterfacePolicy) (count : Nat) : List Moment :=
  (catalog.stages policy count).flatMap fun stage => stage.falls policy

/-- The falls of the last pass come behind those of all others. -/
theorem allFalls_succ_last (catalog : Catalog) (policy : InterfacePolicy) (count : Nat) :
    catalog.allFalls policy (count + 1) =
      catalog.allFalls policy count ++ (catalog.passes policy count).catalog.falls policy := by
  simp only [allFalls, stages_succ_last, List.flatMap_append, List.flatMap_singleton]

/-- Several passes report the names of all handles that fall in them. -/
theorem removed_passes_eq_map (catalog : Catalog) (policy : InterfacePolicy) (count : Nat) :
    (catalog.passes policy count).removed = (catalog.allFalls policy count).map Moment.name := by
  rw [removed_passes, allFalls, List.map_flatMap]
  simp only [removed_pass]

/-- A run that did not converge ends with a warning of the limit. -/
def limitNotices (summary : Summary) : List Notice :=
  if summary.converged then [] else [⟨.reported (.passLimit summary.passes), none⟩]

/-- The notices of passes that are numbered from a first number on. -/
def stageNotices (policy : InterfacePolicy) (number : Nat) (stages : List Catalog) : List Notice :=
  (stages.zipIdx number).flatMap fun entry => passNotices entry.2 (entry.1.pass policy)

/-- A run that consists of passes comes to the progress of them all. It converged when the last
pass removed nothing and all others did, and otherwise all passes up to the limit did. -/
structure ConsistsOf (run : Run) (start : Catalog) (options : Options) (done count : Nat) :
    Prop where
  passes : run.summary.passes = done + count
  catalog : run.catalog = (start.passes options.policy count).catalog
  removed : run.summary.removed = (start.passes options.policy count).removed
  tally : run.summary.tally = (start.passes options.policy count).tally
  notices : run.notices =
    stageNotices options.policy (done + 1) (start.stages options.policy count) ++
      limitNotices run.summary
  converged : run.summary.converged = true → ∃ earlier, count = earlier + 1 ∧
    (∀ stage ∈ start.stages options.policy earlier, (stage.pass options.policy).removed ≠ []) ∧
    ((start.passes options.policy earlier).catalog.pass options.policy).removed = []
  stopped : run.summary.converged = false → options.isExhausted (done + count) = true ∧
    ∀ stage ∈ start.stages options.policy count, (stage.pass options.policy).removed ≠ []

/-- Every run consists of passes. -/
theorem repeatPasses_consistsOf (catalog : Catalog) (options : Options) (done : Nat) :
    ∃ count, ConsistsOf (catalog.repeatPasses options done) catalog options done count := by
  induction catalog, done using repeatPasses.induct options with
  | case1 catalog done exhausted =>
      rw [repeatPasses_of_isExhausted catalog exhausted]
      refine ⟨0, rfl, rfl, rfl, rfl, rfl, ?_, ?_⟩
      · intro converged
        cases converged
      · intro _
        exact ⟨exhausted, by simp [stages]⟩
  | case2 catalog done unexhausted progress stable =>
      rw [repeatPasses_of_stable (by simpa using unexhausted) stable]
      refine ⟨1, ?_⟩
      constructor
      case passes => rfl
      case catalog => rfl
      case removed => simpa [passes, Progress.andThen] using stable.symm
      case tally => simp [passes, Progress.andThen]
      case notices => simp [stageNotices, stages, limitNotices]
      case converged => exact fun _ => ⟨0, rfl, by simp [stages], stable⟩
      case stopped =>
        intro unconverged
        cases unconverged
  | case3 catalog done unexhausted progress unstable inductionHypothesis =>
      obtain ⟨count, later⟩ := inductionHypothesis
      rw [repeatPasses_of_unstable (by simpa using unexhausted) unstable]
      refine ⟨count + 1, ?_⟩
      constructor
      case passes => exact later.passes.trans (Nat.add_right_comm done 1 count)
      case catalog => exact later.catalog
      case removed => exact congrArg (progress.removed ++ ·) later.removed
      case tally => exact congrArg (progress.tally + ·) later.tally
      case notices =>
        rw [stages_succ]
        simp only [Run.after, stageNotices, List.zipIdx_cons, List.flatMap_cons,
          List.append_assoc]
        exact congrArg _ later.notices
      case converged =>
        intro converged
        obtain ⟨earlier, rfl, removing, quiet⟩ := later.converged converged
        refine ⟨earlier + 1, rfl, ?_, quiet⟩
        rw [stages_succ]
        exact List.forall_mem_cons.mpr ⟨unstable, removing⟩
      case stopped =>
        intro unconverged
        obtain ⟨exhausted, removing⟩ := later.stopped unconverged
        rw [Nat.add_right_comm] at exhausted
        exact ⟨exhausted, List.forall_mem_cons.mpr ⟨unstable, removing⟩⟩

/-- A run consists of as many passes as its summary says. -/
theorem repeatPasses_consistsOf_passes (catalog : Catalog) (options : Options) :
    ConsistsOf (catalog.repeatPasses options 0) catalog options 0
      (catalog.repeatPasses options 0).summary.passes := by
  obtain ⟨count, consists⟩ := repeatPasses_consistsOf catalog options 0
  have same : (catalog.repeatPasses options 0).summary.passes = count :=
    consists.passes.trans (Nat.zero_add count)
  rwa [same]

/-- A resolution announces its preparation, its passes, a limit that stopped it and its end. -/
theorem notices_resolve (catalog : Catalog) (options : Options) :
    (catalog.resolve options).notices =
      (catalog.prepare options).2 ++
        (stageNotices options.policy 1 ((catalog.prepare options).1.stages options.policy
            (catalog.resolve options).summary.passes) ++
          limitNotices (catalog.resolve options).summary) ++
        closingNotices (catalog.resolve options) := by
  have consists := repeatPasses_consistsOf_passes (catalog.prepare options).1 options
  have notices := consists.notices
  rw [Nat.zero_add, ← summary_resolve] at notices
  rw [← notices]
  rfl

/-- Every pass of a run but the last removes something. -/
theorem ConsistsOf.removing {run : Run} {done count : Nat}
    (consists : ConsistsOf run catalog options done count) :
    ∀ stage ∈ (catalog.stages options.policy count).dropLast,
      (stage.pass options.policy).removed ≠ [] := by
  cases converged : run.summary.converged with
  | true =>
      obtain ⟨earlier, rfl, removing, -⟩ := consists.converged converged
      rw [stages_succ_last, List.dropLast_concat]
      exact removing
  | false =>
      intro stage listed
      exact (consists.stopped converged).2 stage (List.dropLast_subset _ listed)

end Catalog

end TypeGraph
