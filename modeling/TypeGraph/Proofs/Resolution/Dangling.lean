import TypeGraph.Proofs.Catalog.History
import TypeGraph.Proofs.Resolution.Converged
import TypeGraph.Proofs.Resolution.Termination
import TypeGraph.Proofs.Resolution.Truncation

/-!
This file says which dangling references a run can leave when a limit stops it. A visit fills a
declaration with references that are alive at this moment, so a reference dangles at the end of a
pass only if its target fell later in the same pass.
-/

namespace TypeGraph

/-- A tidy command renames nothing, and it brings in no reference that is not kept up. -/
structure Command.IsTidy (command : Command) : Prop where
  inserts : command.InsertsWithin Declaration.IsTidy
  named : command.EditsWithin Declaration.SameName
  edits : command.EditsWithin fun before after => before.IsTidy → after.IsTidy

namespace Catalog

variable {catalog : Catalog} {policy : InterfacePolicy} {holder target : Handle}
  {declaration : Declaration} {reference : Reference}

theorem IsTidy.persists_of_isTidy :
    Persists IsTidy Declaration.IsTidy fun before after => before.IsTidy → after.IsTidy :=
  IsTidy.persists (fun _ member => (isFresh_of_mem_table member).isTidy) fun _ tidy => tidy

/-- Every history of tidy commands leaves a tidy catalog. -/
theorem performAll_isTidy {commands : List Command} (tidy : ∀ command ∈ commands, command.IsTidy) :
    (Catalog.empty.performAll commands).IsTidy :=
  IsTidy.persists_of_isTidy.performAll_of_inserts empty_isTidy
    (fun command listed => (tidy command listed).inserts)
    fun command listed => (tidy command listed).edits

/-! ### Falls after a visit -/

/-- A target falls after the visit of a holder when a sweep removes it at a later moment. -/
def FallsAfter (catalog : Catalog) (policy : InterfacePolicy) (order : List Handle)
    (holder target : Handle) : Prop :=
  ∃ visit fall : Moment, [visit, fall].Sublist (catalog.moments policy order) ∧
    visit.handle = holder ∧ fall.handle = target ∧ fall.falls policy = true

/-- What falls after a visit in a pass is among the falls of the pass. -/
theorem FallsAfter.exists_mem_falls
    (late : catalog.FallsAfter policy catalog.visitOrder holder target) :
    ∃ moment ∈ catalog.falls policy, moment.handle = target := by
  obtain ⟨visit, fall, ordered, -, same, falls⟩ := late
  have listed : fall ∈ catalog.moments policy catalog.visitOrder := ordered.subset (by simp)
  exact ⟨fall, List.mem_filter.mpr ⟨listed, falls⟩, same⟩

/-- A visit that leaves a declaration resolves it in what is live at this moment and stays so. -/
theorem resolvedIn_step (indexed : catalog.Indexed) (tidy : catalog.IsTidy)
    (held : (catalog.step policy holder).catalog.declaration? holder = some declaration) :
    declaration.ResolvedIn catalog holder ∧ declaration.IsTidy ∧
      (catalog.step policy holder).catalog.isLive = catalog.isLive := by
  have steps := step_steps catalog policy holder
  generalize (catalog.step policy holder).catalog = later at steps held ⊢
  generalize (catalog.step policy holder).removed = removed at steps
  cases steps with
  | absent empty =>
      rw [empty] at held
      cases held
  | filled original found stands =>
      rw [declaration?_filled found, if_pos rfl] at held
      obtain rfl := Option.some.inj held
      exact ⟨stands.resolvedIn_fill indexed, (tidy holder original found).fill _ _,
        isLive_filled found⟩
  | removed =>
      rw [declaration?_remove, if_pos rfl] at held
      cases held

/-- What a sweep leaves of a visited declaration was resolved when it was visited, and what was live
then and is dead in the end fell afterwards. -/
theorem sweep_exists_visit {order : List Handle} (indexed : catalog.Indexed)
    (tidy : catalog.IsTidy) (visited : holder ∈ order)
    (held : (catalog.sweep policy order).catalog.declaration? holder = some declaration) :
    ∃ visit : Catalog, declaration.ResolvedIn visit holder ∧ declaration.IsTidy ∧
      ∀ target, visit.isLive target = true →
        (catalog.sweep policy order).catalog.isLive target = false →
          catalog.FallsAfter policy order holder target := by
  induction order generalizing catalog with
  | nil => cases visited
  | cons first rest inductionHypothesis =>
      simp only [sweep, Progress.andThen] at held ⊢
      by_cases again : holder ∈ rest
      · obtain ⟨stage, resolved, isTidy, later⟩ :=
          inductionHypothesis (Indexed.persists_of_sameName.step indexed policy first)
            (IsTidy.persists_of_isTidy.step tidy policy first) again held
        refine ⟨stage, resolved, isTidy, ?_⟩
        intro target alive dead
        obtain ⟨visit, fall, ordered, late⟩ := later target alive dead
        exact ⟨visit, fall, ordered.cons _, late⟩
      · -- nothing after this visit changes the holder, so it stays as it is resolved here
        obtain rfl : holder = first := (List.mem_cons.mp visited).resolve_right again
        have untouched : ∀ handle ∈ rest, ∀ middle : Catalog,
            middle.declaration? holder =
                (catalog.step policy holder).catalog.declaration? holder →
              (middle.step policy handle).catalog.declaration? holder =
                (catalog.step policy holder).catalog.declaration? holder := by
          intro handle inside middle same
          have different : holder ≠ handle := by
            rintro rfl
            exact again inside
          rw [declaration?_step_of_ne different, same]
        rw [sweep_invariant untouched rfl] at held
        obtain ⟨resolved, isTidy, sameLive⟩ := resolvedIn_step indexed tidy held
        refine ⟨catalog, resolved, isTidy, ?_⟩
        intro target alive dead
        have live := (sweep_falls (catalog.step policy holder).catalog policy rest).2.2 target
        rw [dead, sameLive, alive, Bool.true_and, eq_comm, decide_eq_false_iff_not,
          not_not] at live
        obtain ⟨fall, later, same⟩ := List.mem_map.mp live
        obtain ⟨listed, falls⟩ := List.mem_filter.mp later
        exact ⟨⟨catalog, holder⟩, fall, (List.singleton_sublist.mpr listed).cons_cons _, rfl, same,
          falls⟩

/-- The references of a declaration that is live after a pass mention no variables of others, and
a dead target among them fell in this pass after the visit of the declaration. -/
theorem pass_fallsAfter (indexed : catalog.Indexed) (tidy : catalog.IsTidy)
    (listed : (holder, declaration) ∈ (catalog.pass policy).catalog.declarations)
    (holds : reference ∈ declaration.references) :
    (∀ owned ∈ reference.typeVariables, owned.2.declaring = holder) ∧
      ∀ target ∈ reference.targets, (catalog.pass policy).catalog.isLive target = false →
        catalog.FallsAfter policy catalog.visitOrder holder target := by
  have held := (mem_declarations_iff.mp listed).2
  have stays : holder ∈ (catalog.pass policy).catalog.liveHandles :=
    mem_liveHandles_iff_exists.mpr ⟨declaration, listed⟩
  have started := ((pass_falls catalog policy).2.2 holder stays).1
  have visited := mem_visitOrder_iff.mpr (mem_liveHandles_iff.mp started)
  obtain ⟨visit, resolved, isTidy, later⟩ := sweep_exists_visit indexed tidy visited held
  refine ⟨resolved.declaring_eq isTidy holds, ?_⟩
  intro target mentioned dead
  have alive := resolved.not_dangles isTidy holds
  rw [dangles, List.any_eq_false] at alive
  exact later target (by simpa using alive target mentioned) dead

/-! ### Dangling references after several passes -/

/-- After the last of its passes a run holds dangling references only to handles that fell in this
pass after the visit of their holder, and type variables only of their holder. No reference leads to
a handle that fell in an earlier pass, and nothing dangles when the last pass removed nothing. -/
structure DanglesLate (start : Catalog) (policy : InterfacePolicy) (earlier : Nat)
    (final : Catalog) : Prop where
  last : final = ((start.passes policy earlier).catalog.pass policy).catalog
  late : ∀ entry ∈ final.declarations, ∀ reference ∈ entry.2.references,
    ∀ target ∈ reference.targets, final.isLive target = false →
      (start.passes policy earlier).catalog.FallsAfter policy
        (start.passes policy earlier).catalog.visitOrder entry.1 target
  own : ∀ entry ∈ final.declarations, ∀ reference ∈ entry.2.references,
    ∀ owned ∈ reference.typeVariables, owned.2.declaring = entry.1
  never : ∀ entry ∈ final.declarations, ∀ reference ∈ entry.2.references,
    ∀ moment ∈ start.allFalls policy earlier, moment.handle ∉ reference.targets
  quiet : ((start.passes policy earlier).catalog.pass policy).removed = [] →
    final.danglingHolders = []

/-- Passes over an indexed and tidy catalog leave late danglers only. -/
theorem Indexed.danglesLate (indexed : catalog.Indexed) (tidy : catalog.IsTidy)
    (policy : InterfacePolicy) (earlier : Nat) :
    DanglesLate catalog policy earlier (catalog.passes policy (earlier + 1)).catalog := by
  have stageIndexed := Indexed.persists_of_sameName.passes indexed policy earlier
  have stageTidy := IsTidy.persists_of_isTidy.passes tidy policy earlier
  have dead := isLive_passes catalog policy (earlier + 1)
  rw [passes_succ_last] at dead ⊢
  constructor
  case last => rfl
  case late =>
    intro entry listed reference holds
    exact (pass_fallsAfter stageIndexed stageTidy listed holds).2
  case own =>
    intro entry listed reference holds
    exact (pass_fallsAfter stageIndexed stageTidy listed holds).1
  case never =>
    intro entry listed reference holds moment fell mentioned
    -- what fell in an earlier pass is dead at the end, so it would have to fall once more
    have once := (allFalls_nodup catalog policy (earlier + 1)).1
    have gone := dead moment.handle
    rw [allFalls_succ_last, List.map_append] at once gone
    have before : moment.handle ∈ (catalog.allFalls policy earlier).map Moment.handle :=
      List.mem_map_of_mem fell
    rw [decide_eq_false (not_not.mpr (List.mem_append_left _ before)), Bool.and_false] at gone
    obtain ⟨again, falls, same⟩ := ((pass_fallsAfter stageIndexed stageTidy listed holds).2
      moment.handle mentioned gone).exists_mem_falls
    have now : moment.handle ∈
        ((catalog.passes policy earlier).catalog.falls policy).map Moment.handle :=
      List.mem_map.mpr ⟨again, falls, same⟩
    exact List.disjoint_of_nodup_append once before now
  case quiet =>
    intro quiet
    rw [removed_pass, List.map_eq_nil_iff] at quiet
    rw [danglingHolders, List.map_eq_nil_iff, List.filter_eq_nil_iff]
    intro entry listed dangling
    obtain ⟨reference, holds, dangles⟩ := List.any_eq_true.mp dangling
    obtain ⟨target, mentioned, isDead⟩ := List.any_eq_true.mp dangles
    obtain ⟨moment, falls, -⟩ := ((pass_fallsAfter stageIndexed stageTidy listed holds).2
      target mentioned (by simpa using isDead)).exists_mem_falls
    rw [quiet] at falls
    cases falls

/-- After any history of tidy commands, a resolution of at least one pass leaves only references
that began to dangle in its last pass, after the visit of their holder. -/
theorem resolve_danglesLate {commands : List Command}
    (tidy : ∀ command ∈ commands, command.IsTidy) {options : Options} {earlier : Nat}
    (passed : ((Catalog.empty.performAll commands).resolve options).summary.passes = earlier + 1) :
    DanglesLate ((Catalog.empty.performAll commands).prepare options).1 options.policy earlier
      ((Catalog.empty.performAll commands).resolve options).catalog := by
  have indexed := Indexed.persists_of_sameName.prepare
    (performAll_indexed fun command listed => (tidy command listed).named) options
  have startTidy := IsTidy.persists_of_isTidy.prepare (performAll_isTidy tidy) options
  have reached := (repeatPasses_consistsOf_passes
    ((Catalog.empty.performAll commands).prepare options).1 options).catalog
  rw [← summary_resolve, passed] at reached
  rw [catalog_resolve, reached]
  exact indexed.danglesLate startTidy options.policy earlier

/-- Two passes over three classes that cascade leave a class that holds the one removed last. -/
theorem resolve_danglesLate_cascading :
    let options := Options.standard.limitedTo 2
    let run := (Catalog.empty.performAll cascading).resolve options
    (∀ command ∈ cascading, command.IsTidy) ∧ run.summary.passes = 1 + 1 ∧
      run.catalog.danglingHolders = ["p.A"] ∧
      DanglesLate ((Catalog.empty.performAll cascading).prepare options).1 options.policy 1
        run.catalog := by
  intro options run
  have fresh : ∀ name text, ((Declaration.newClass name).withSupertype text).IsFresh := by
    intro name text
    constructor <;> simp [Declaration.newClass, Declaration.withSupertype, Declaration.slots,
      Declaration.superclass?, Declaration.bounds, TypeParameter.slots, Slot.ofText]
  have declares : ∀ name text,
      (Command.declare "p" ((Declaration.newClass name).withSupertype text)).IsTidy :=
    fun name text => ⟨(fresh name text).isTidy, trivial, trivial⟩
  have tidy : ∀ command ∈ cascading, command.IsTidy := by
    simp only [cascading, List.forall_mem_cons, declares, true_and]
    exact ⟨⟨trivial, trivial, trivial⟩, by simp⟩
  have passed : run.summary.passes = 1 + 1 := by decide +kernel
  have holders : run.catalog.danglingHolders = ["p.A"] := by decide +kernel
  exact ⟨tidy, passed, holders, resolve_danglesLate tidy passed⟩

end Catalog

end TypeGraph
