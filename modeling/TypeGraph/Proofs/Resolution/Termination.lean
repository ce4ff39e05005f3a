import Mathlib.Data.Finset.Card
import TypeGraph.Proofs.Catalog.Installation
import TypeGraph.Proofs.Resolution.Idempotence
import TypeGraph.Proofs.Resolution.Stages
import TypeGraph.Proofs.Resolution.Support

/-!
This file bounds the number of passes. Every pass but the last takes away a live handle and none is
taken away twice, also when package entries are stale, so the live handles pay for the passes.
-/

namespace TypeGraph.Catalog

variable {catalog : Catalog} {policy : InterfacePolicy} {options : Options}

/-- What falls in a sweep was visited and live and falls once, and exactly the rest stays live. -/
theorem sweep_falls (catalog : Catalog) (policy : InterfacePolicy) (order : List Handle) :
    let fallen :=
      ((catalog.moments policy order).filter fun moment => moment.falls policy).map Moment.handle
    fallen.Nodup ∧ (∀ handle ∈ fallen, handle ∈ order ∧ catalog.isLive handle = true) ∧
      ∀ handle, (catalog.sweep policy order).catalog.isLive handle =
        (catalog.isLive handle && decide (handle ∉ fallen)) := by
  induction order generalizing catalog with
  | nil => simp [moments, sweep]
  | cons first rest inductionHypothesis =>
      obtain ⟨once, visited, live⟩ := inductionHypothesis (catalog.step policy first).catalog
      have kept : ∀ handle, (catalog.step policy first).catalog.isLive handle = _ :=
        Moment.isLive_step policy ⟨catalog, first⟩
      simp only [moments, List.filter_cons]
      simp only [sweep, Progress.andThen]
      by_cases falls : Moment.falls policy ⟨catalog, first⟩ = true
      · simp only [falls, if_true, List.map_cons, Bool.true_and] at kept ⊢
        -- a handle that fell is not live in the rest of the sweep, so it cannot fall there again
        have fresh : first ∉ _ := fun again => by
          have alive := (visited first again).2
          simp [kept] at alive
        have wasLive : catalog.isLive first = true := (Bool.and_eq_true_iff.mp falls).1
        refine ⟨List.nodup_cons.mpr ⟨fresh, once⟩, ?_, ?_⟩
        · intro handle listed
          rcases List.mem_cons.mp listed with rfl | later
          · exact ⟨List.mem_cons_self, wasLive⟩
          · obtain ⟨inRest, alive⟩ := visited handle later
            rw [kept] at alive
            exact ⟨List.mem_cons_of_mem _ inRest, (Bool.and_eq_true_iff.mp alive).1⟩
        · intro handle
          rw [live, kept, Bool.and_assoc]
          simp
      · simp only [falls, Bool.false_eq_true, if_false, Bool.false_and, Bool.not_false,
          Bool.and_true] at kept ⊢
        refine ⟨once, ?_, ?_⟩
        · intro handle listed
          obtain ⟨inRest, alive⟩ := visited handle listed
          rw [kept] at alive
          exact ⟨List.mem_cons_of_mem _ inRest, alive⟩
        · intro handle
          rw [live, kept]

/-- The falls of a pass take different handles away from the live ones. -/
theorem pass_falls (catalog : Catalog) (policy : InterfacePolicy) :
    ((catalog.falls policy).map Moment.handle).Nodup ∧
      (∀ moment ∈ catalog.falls policy, moment.handle ∈ catalog.liveHandles) ∧
      ∀ handle ∈ (catalog.pass policy).catalog.liveHandles,
        handle ∈ catalog.liveHandles ∧ handle ∉ (catalog.falls policy).map Moment.handle := by
  obtain ⟨once, visited, live⟩ := sweep_falls catalog policy catalog.visitOrder
  refine ⟨once, ?_, ?_⟩
  · intro moment falls
    have inOrder := (visited moment.handle (List.mem_map_of_mem falls)).1
    exact mem_liveHandles_iff.mpr (mem_visitOrder_iff.mp inOrder)
  · intro handle stays
    obtain ⟨listed, isLive⟩ := mem_liveHandles_iff.mp stays
    rw [pass, live, Bool.and_eq_true_iff] at isLive
    exact ⟨mem_liveHandles_iff.mpr ⟨mem_handles_of_pass listed, isLive.1⟩,
      of_decide_eq_true isLive.2⟩

/-- What is live after several passes was live before them and fell in none of them. -/
theorem isLive_passes (catalog : Catalog) (policy : InterfacePolicy) (count : Nat)
    (handle : Handle) :
    (catalog.passes policy count).catalog.isLive handle =
      (catalog.isLive handle &&
        decide (handle ∉ (catalog.allFalls policy count).map Moment.handle)) := by
  induction count generalizing catalog with
  | zero => simp [passes, allFalls, stages]
  | succ count inductionHypothesis =>
      have now : (catalog.pass policy).catalog.isLive handle = _ :=
        (sweep_falls catalog policy catalog.visitOrder).2.2 handle
      simp only [passes, Progress.andThen, inductionHypothesis, now, allFalls, stages_succ,
        List.flatMap_cons, List.map_append, List.mem_append, not_or, Bool.decide_and,
        Bool.and_assoc]
      rfl

/-- No handle falls twice in several passes, and all that fall were live before the first one. -/
theorem allFalls_nodup (catalog : Catalog) (policy : InterfacePolicy) (count : Nat) :
    ((catalog.allFalls policy count).map Moment.handle).Nodup ∧
      ∀ moment ∈ catalog.allFalls policy count, moment.handle ∈ catalog.liveHandles := by
  induction count generalizing catalog with
  | zero => simp [allFalls, stages]
  | succ count inductionHypothesis =>
      obtain ⟨onceNow, liveNow, shrinks⟩ := pass_falls catalog policy
      obtain ⟨onceLater, liveLater⟩ := inductionHypothesis (catalog.pass policy).catalog
      have split : catalog.allFalls policy (count + 1) =
          catalog.falls policy ++ (catalog.pass policy).catalog.allFalls policy count := by
        rw [allFalls, stages_succ, List.flatMap_cons, allFalls]
      rw [split, List.map_append]
      constructor
      · refine List.nodup_append'.mpr ⟨onceNow, onceLater, ?_⟩
        intro handle now later
        obtain ⟨moment, falls, rfl⟩ := List.mem_map.mp later
        exact (shrinks moment.handle (liveLater moment falls)).2 now
      · intro moment falls
        rcases List.mem_append.mp falls with now | later
        · exact liveNow moment now
        · exact (shrinks moment.handle (liveLater moment later)).1

/-- At most as many handles fall as were live. -/
theorem length_allFalls_le (catalog : Catalog) (policy : InterfacePolicy) (count : Nat) :
    (catalog.allFalls policy count).length ≤ catalog.liveHandles.card := by
  obtain ⟨once, live⟩ := allFalls_nodup catalog policy count
  have inside : ((catalog.allFalls policy count).map Moment.handle).toFinset ⊆
      catalog.liveHandles := by
    intro handle listed
    obtain ⟨moment, falls, rfl⟩ := List.mem_map.mp (List.mem_toFinset.mp listed)
    exact live moment falls
  have bounded := Finset.card_le_card inside
  rwa [List.toFinset_card_of_nodup once, List.length_map] at bounded

/-- Passes that remove something are not more than the handles that fall in them. -/
theorem le_length_allFalls {count : Nat}
    (removing : ∀ stage ∈ catalog.stages policy count, (stage.pass policy).removed ≠ []) :
    count ≤ (catalog.allFalls policy count).length := by
  induction count generalizing catalog with
  | zero => exact Nat.zero_le _
  | succ count inductionHypothesis =>
      rw [stages_succ] at removing
      obtain ⟨first, others⟩ := List.forall_mem_cons.mp removing
      have later := inductionHypothesis others
      have now : 0 < (catalog.falls policy).length := by
        rw [removed_pass, ne_eq, List.map_eq_nil_iff] at first
        exact List.length_pos_iff.mpr first
      rw [allFalls, stages_succ, List.flatMap_cons, List.length_append, ← allFalls]
      omega

/-- Without a limit some pass removes nothing, after no more passes than there were live handles. -/
theorem exists_quiet_pass (catalog : Catalog) (policy : InterfacePolicy) :
    ∃ count ≤ catalog.liveHandles.card,
      ((catalog.passes policy count).catalog.pass policy).removed = [] := by
  let unlimited : Options := ⟨policy, none, false⟩
  obtain ⟨count, consists⟩ := repeatPasses_consistsOf catalog unlimited 0
  obtain ⟨earlier, -, removing, quiet⟩ :=
    consists.converged (repeatPasses_converged rfl catalog 0)
  have few : earlier ≤ catalog.liveHandles.card :=
    (le_length_allFalls removing).trans (length_allFalls_le catalog policy earlier)
  exact ⟨earlier, few, quiet⟩

/-- A run terminates in time. Its passes lead from stage to stage, every stage but the last loses a
live handle, and no handle falls twice, so the removals and the handles that were alive before the
run bound its passes. Without a limit some pass removes nothing, and enough passes converge. -/
structure TerminatesInTime (start : Catalog) (alive : Finset Handle) (options : Options)
    (run : Run) : Prop where
  reached : run.catalog = (start.passes options.policy run.summary.passes).catalog
  removing : ∀ stage ∈ (start.stages options.policy run.summary.passes).dropLast,
    ∃ moment ∈ stage.falls options.policy, moment.handle ∈ stage.liveHandles
  names : run.summary.removed =
    (start.allFalls options.policy run.summary.passes).map Moment.name
  once : ((start.allFalls options.policy run.summary.passes).map Moment.handle).Nodup
  live : ∀ moment ∈ start.allFalls options.policy run.summary.passes, moment.handle ∈ alive
  passes : run.summary.passes ≤ run.summary.removed.length + 1
  removed : run.summary.removed.length ≤ alive.card
  ends : ∃ count ≤ alive.card,
    ((start.passes options.policy count).catalog.pass options.policy).removed = []
  converges : (∀ limit, options.passLimit = some limit → alive.card + 1 ≤ limit) →
    run.summary.converged = true

/-- A run is not stopped by a limit that exceeds the number of live handles. -/
theorem ConsistsOf.converges {run : Run} {count : Nat}
    (consists : ConsistsOf run catalog options 0 count)
    (enough : ∀ limit, options.passLimit = some limit → catalog.liveHandles.card + 1 ≤ limit) :
    run.summary.converged = true := by
  rw [← Bool.not_eq_false]
  intro unconverged
  obtain ⟨exhausted, removing⟩ := consists.stopped unconverged
  have few : count ≤ catalog.liveHandles.card :=
    (le_length_allFalls removing).trans (length_allFalls_le catalog options.policy count)
  rw [Options.isExhausted, Nat.zero_add] at exhausted
  cases isLimit : options.passLimit with
  | none => simp [isLimit] at exhausted
  | some limit =>
      have reached : limit ≤ count := by simpa [isLimit] using exhausted
      have beyond := enough limit isLimit
      omega

/-- Every pass of a run but the last is paid for by a fall. -/
theorem ConsistsOf.le_length_allFalls {run : Run} {done count : Nat}
    (consists : ConsistsOf run catalog options done count) :
    count ≤ (catalog.allFalls options.policy count).length + 1 := by
  cases converged : run.summary.converged with
  | false => exact Nat.le_succ_of_le (Catalog.le_length_allFalls (consists.stopped converged).2)
  | true =>
      obtain ⟨earlier, rfl, removing, -⟩ := consists.converged converged
      have paid := Catalog.le_length_allFalls removing
      have more : (catalog.allFalls options.policy earlier).length ≤
          (catalog.allFalls options.policy (earlier + 1)).length := by
        simp [allFalls, stages_succ_last]
      omega

theorem repeatPasses_terminatesInTime (start : Catalog) (options : Options) :
    TerminatesInTime start start.liveHandles options (start.repeatPasses options 0) := by
  have consists := repeatPasses_consistsOf_passes start options
  generalize start.repeatPasses options 0 = run at consists ⊢
  obtain ⟨once, live⟩ := allFalls_nodup start options.policy run.summary.passes
  have names : run.summary.removed =
      (start.allFalls options.policy run.summary.passes).map Moment.name :=
    consists.removed.trans (removed_passes_eq_map start options.policy _)
  have counted : run.summary.removed.length =
      (start.allFalls options.policy run.summary.passes).length := by
    rw [names, List.length_map]
  refine
    { reached := consists.catalog
      removing := ?removing
      names := names
      once := once
      live := live
      passes := ?passes
      removed := ?removed
      ends := exists_quiet_pass start options.policy
      converges := consists.converges }
  case removing =>
    intro stage listed
    have loses := consists.removing stage listed
    rw [removed_pass, ne_eq, List.map_eq_nil_iff] at loses
    obtain ⟨moment, falls⟩ := List.exists_mem_of_ne_nil _ loses
    exact ⟨moment, falls, (pass_falls stage options.policy).2.1 moment falls⟩
  case passes =>
    rw [counted]
    exact consists.le_length_allFalls
  case removed =>
    rw [counted]
    exact length_allFalls_le start options.policy _

/-- After any history and under any options, a resolution terminates in time. -/
theorem resolve_terminatesInTime (commands : List Command) (options : Options) :
    let catalog := Catalog.empty.performAll commands
    TerminatesInTime (catalog.prepare options).1 catalog.liveHandles options
      (catalog.resolve options) := by
  intro catalog
  have sameLive : (catalog.prepare options).1.liveHandles = catalog.liveHandles := by
    rw [liveHandles, liveHandles, (performAll_isSeparated commands).declarations_prepare]
  have inTime := repeatPasses_terminatesInTime (catalog.prepare options).1 options
  rw [sameLive] at inTime
  exact ⟨inTime.reached, inTime.removing, inTime.names, inTime.once, inTime.live, inTime.passes,
    inTime.removed, inTime.ends, inTime.converges⟩

/-- In this history a class without its superclass is renamed, so a removal cannot erase its entry,
and the superclass of another class still leads there. -/
def stale : List Command :=
  [.addPackage "p", .declare "p" ((Declaration.newClass "A").withSupertype "p.Missing"),
    .edit ⟨0⟩ fun declaration => { declaration with name := "Renamed" },
    .declare "p" ((Declaration.newClass "B").withSupertype "p.A")]

example :
    let run := (Catalog.empty.performAll stale).resolve .standard
    run.summary.passes = 2 ∧ run.summary.removed = ["p.Renamed"] ∧
      run.catalog.entryCount = 2 ∧ run.catalog.declarations.length = 1 := by
  decide +kernel

end TypeGraph.Catalog
