import TypeGraph.Proofs.Catalog.Filing
import TypeGraph.Proofs.Resolution.Dangling
import TypeGraph.Proofs.Resolution.Idempotence
import TypeGraph.Proofs.Resolution.Retraction

/-!
This file says when a removed declaration is forgotten. No name leads to it and no converged run
leaves a reference to it as long as declarations are removed under the names that they came in with;
a declaration that was renamed before it is removed stays to be found.
-/

namespace TypeGraph

/-- An orderly command brings in no reference that is not kept up, and it may rename. -/
structure Command.IsOrderly (command : Command) : Prop where
  inserts : command.InsertsWithin Declaration.IsTidy
  edits : command.EditsWithin fun before after => before.IsTidy → after.IsTidy

/-! ### References of filled slots -/

/-- The reference of a slot, if there is one, was found by a lookup. -/
def Slot.FoundBy (lookup : Lookup) (slot : Slot) : Prop :=
  ∀ reference, slot.reference = some reference →
    ∃ scopes text, resolveText lookup scopes text = .ok reference

section FoundBy

variable {lookup : Lookup}

/-- A slot without a reference has nothing to find. -/
theorem Slot.foundBy_of_none {slot : Slot} (bare : slot.reference = none) :
    slot.FoundBy lookup := by
  intro reference held
  rw [bare] at held
  cases held

/-- What a lookup filled in is what it finds. -/
theorem Slot.foundBy_fill (scopes : List Scope) (slot : Slot) :
    (slot.fill lookup scopes).FoundBy lookup := by
  intro reference held
  refine ⟨scopes, slot.text, ?_⟩
  unfold Slot.fill at held
  cases found : resolveText lookup scopes slot.text with
  | error unresolved => simp [found, Except.toOption] at held
  | ok other => simpa [found, Except.toOption] using held

/-- Filled bounds are found, since the marked ones hold no reference in a tidy declaration. -/
theorem TypeParameter.foundBy_fill {parameters : List TypeParameter} (scopes : List Scope)
    (tidy : ∀ parameter ∈ parameters, ∀ bound ∈ parameter.bounds,
      bound.unresolvable = true → bound.slot.reference = none) :
    ∀ slot ∈ TypeParameter.slots (parameters.map fun parameter => parameter.fill lookup scopes),
      slot.FoundBy lookup := by
  intro slot listed
  obtain ⟨filled, introduced, inside⟩ := List.mem_flatMap.mp listed
  obtain ⟨parameter, declared, rfl⟩ := List.mem_map.mp introduced
  obtain ⟨final, among, rfl⟩ := List.mem_map.mp inside
  obtain ⟨bound, owned, rfl⟩ := List.mem_map.mp among
  unfold Bound.fill
  split
  next marked => exact Slot.foundBy_of_none (tidy parameter declared bound owned marked)
  next => exact Slot.foundBy_fill scopes bound.slot

/-- The filled slots of a member of a settled kind are its own slots and its bounds. -/
theorem Member.foundBy_fill {site : Site} {member : Member}
    (tidy : ∀ parameter ∈ member.typeParameters, ∀ bound ∈ parameter.bounds,
      bound.unresolvable = true → bound.slot.reference = none) :
    ∀ slot ∈ (member.fill site).slots, slot.FoundBy site.lookup := by
  intro slot listed
  rw [slots, fill, ownSlots_fillIn, typeParameters_fillIn] at listed
  rcases List.mem_append.mp listed with own | bound
  · obtain ⟨original, -, rfl⟩ := List.mem_map.mp own
    exact Slot.foundBy_fill _ original
  · exact TypeParameter.foundBy_fill _ tidy slot bound

/-- Every reference of a tidy declaration that was filled was found by the lookup. -/
theorem Declaration.IsTidy.foundBy_fill {declaration : Declaration} (tidy : declaration.IsTidy)
    (handle : Handle) : ∀ slot ∈ (declaration.fill lookup handle).slots, slot.FoundBy lookup := by
  intro slot listed
  simp only [slots, List.mem_append, Option.mem_toList, superclass?_fill, List.mem_flatMap]
    at listed
  rcases listed with ((superclass | interface) | bound) | ⟨filled, member, own⟩
  · obtain ⟨original, -, rfl⟩ := Option.map_eq_some_iff.mp superclass
    exact Slot.foundBy_fill _ original
  · obtain ⟨original, -, rfl⟩ := List.mem_map.mp interface
    exact Slot.foundBy_fill _ original
  · refine TypeParameter.foundBy_fill _ ?_ slot bound
    intro parameter declared bound owned
    exact tidy.marked bound (mem_bounds_iff.mpr (.inl ⟨parameter, declared, owned⟩))
  · obtain ⟨original, declared, -, rfl⟩ := mem_members_fill_iff.mp member
    unfold Member.fillAmong at own
    split at own
    next =>
      refine Member.foundBy_fill ?_ slot own
      intro parameter introduced bound owned
      exact tidy.marked bound
        (mem_bounds_iff.mpr (.inr ⟨original, declared, parameter, introduced, owned⟩))
    next outside =>
      exact Slot.foundBy_of_none (tidy.unsettled original declared outside slot own)

end FoundBy

namespace Catalog

variable {catalog : Catalog} {options : Options}

/-! ### Runs that converge -/

/-- A lookup finds live declarations only where nothing else is listed. -/
theorem ListsLive.findsLive (listsLive : catalog.ListsLive) : catalog.FindsLive :=
  fun _ _ found => listsLive _ (mem_handles_iff_exists_lists.mpr (exists_lists_of_lookup? found))

/-- After a pass that removes nothing a tidy catalog holds only references that it would find. -/
theorem IsTidy.foundBy_of_quiet_pass {policy : InterfacePolicy}
    (tidy : (catalog.pass policy).catalog.IsTidy) (quiet : (catalog.pass policy).removed = [])
    {handle : Handle} {declaration : Declaration}
    (listed : (handle, declaration) ∈ (catalog.pass policy).catalog.declarations) :
    ∀ slot ∈ declaration.slots, slot.FoundBy (catalog.pass policy).catalog.lookup? := by
  obtain ⟨inside, found⟩ := mem_declarations_iff.mp listed
  have visited : handle ∈ (catalog.pass policy).catalog.visitOrder :=
    mem_visitOrder_iff.mpr ⟨inside, by rw [isLive, found]; rfl⟩
  have rests := isAtRest_of_quiet_pass quiet visited declaration found
  -- what settles to itself is filled with itself
  obtain ⟨-, filled⟩ := Declaration.settle_result_eq_ok_iff.mp ⟨_, congrArg Settlement.result rests⟩
  have held : ∀ slot ∈ (declaration.fill (catalog.pass policy).catalog.lookup? handle).slots,
      slot.FoundBy (catalog.pass policy).catalog.lookup? :=
    (tidy handle declaration found).foundBy_fill handle
  rwa [← filled] at held

/-- A converged run over a tidy catalog leaves no dangling reference when its names lead to live
declarations only. -/
theorem IsTidy.danglingHolders_resolve (tidy : catalog.IsTidy)
    (converged : (catalog.resolve options).summary.converged = true)
    (findsLive : (catalog.resolve options).catalog.FindsLive) :
    (catalog.resolve options).catalog.danglingHolders = [] := by
  rw [summary_resolve] at converged
  obtain ⟨before, tidyBefore, quiet, same⟩ := (repeatPasses_invariant (motive := IsTidy)
    (fun _ middle => IsTidy.persists_of_isTidy.pass middle options.policy)
    (IsTidy.persists_of_isTidy.prepare tidy options) 0).2 converged
  rw [← catalog_resolve] at same
  have tidyAfter := IsTidy.persists_of_isTidy.pass tidyBefore options.policy
  rw [danglingHolders, List.map_eq_nil_iff, List.filter_eq_nil_iff]
  intro entry listed dangling
  obtain ⟨reference, holds, dangles⟩ := List.any_eq_true.mp dangling
  obtain ⟨slot, inside, held⟩ := List.mem_filterMap.mp holds
  rw [same] at listed
  obtain ⟨scopes, text, resolved⟩ :=
    tidyAfter.foundBy_of_quiet_pass quiet listed slot inside reference held
  rw [← same] at resolved
  rw [findsLive.not_dangles resolved] at dangles
  cases dangles

/-! ### Histories -/

/-- A history forgets what it removes under its present names. Then no name leads to a declaration
that is gone, and a run that converges leaves no reference to one; this is always so when nothing is
renamed. Conversely an entry outlives its declaration in every other history, and a name that leads
to a declaration still leads there after its removal unless the declaration was well filed. -/
structure ForgetsRemoved (commands : List Command) : Prop where
  exactly : (Catalog.empty.performAll commands).ListsLive ↔
    Catalog.empty.RemovesAllWellFiled commands
  unrenamed : (∀ command ∈ commands, command.EditsWithin Declaration.SameName) →
    Catalog.empty.RemovesAllWellFiled commands
  found : Catalog.empty.RemovesAllWellFiled commands →
    (Catalog.empty.performAll commands).FindsLive
  settled : ∀ options,
    ((Catalog.empty.performAll commands).resolve options).summary.converged = true →
      Catalog.empty.RemovesAllWellFiled (commands ++ [.resolve options]) →
        ((Catalog.empty.performAll commands).resolve options).catalog.danglingHolders = []
  removal : ∀ qualified handle,
    (Catalog.empty.performAll commands).lookup? qualified = some handle →
      (((Catalog.empty.performAll commands).remove handle).lookup? qualified = some handle ↔
        ¬ (Catalog.empty.performAll commands).IsWellFiled handle)

/-- A history is performed part by part. -/
theorem performAll_append (catalog : Catalog) (earlier later : List Command) :
    catalog.performAll (earlier ++ later) = (catalog.performAll earlier).performAll later := by
  induction earlier generalizing catalog with
  | nil => rfl
  | cons command rest inductionHypothesis => exact inductionHypothesis _

/-- Only live handles are listed exactly when every removal finds its declaration under its present
name. -/
theorem listsLive_iff (commands : List Command) :
    (Catalog.empty.performAll commands).ListsLive ↔
      Catalog.empty.RemovesAllWellFiled commands := by
  have nothing : Catalog.empty.ListsLive := by
    intro handle listed
    cases listed
  rw [empty_isSeparated.listsLive_performAll]
  exact and_iff_right nothing

/-- Every history of orderly commands forgets what it removes in this sense. -/
theorem performAll_forgetsRemoved {commands : List Command}
    (orderly : ∀ command ∈ commands, command.IsOrderly) : ForgetsRemoved commands := by
  have tidy : (Catalog.empty.performAll commands).IsTidy :=
    IsTidy.persists_of_isTidy.performAll_of_inserts empty_isTidy
      (fun command listed => (orderly command listed).inserts)
      fun command listed => (orderly command listed).edits
  constructor
  case exactly => exact listsLive_iff commands
  case unrenamed =>
    intro named
    rw [← listsLive_iff]
    intro handle listed
    obtain ⟨package, member, inside⟩ := List.mem_flatMap.mp listed
    exact ((performAll_indexed named).indexed package member).live inside
  case found =>
    intro removes
    exact ((listsLive_iff commands).mpr removes).findsLive
  case settled =>
    intro options converged removes
    have listsLive := (listsLive_iff _).mpr removes
    rw [performAll_append] at listsLive
    exact tidy.danglingHolders_resolve converged listsLive.findsLive
  case removal =>
    intro qualified handle found
    exact (performAll_isFiledOnce commands handle).lookup?_remove_iff found

/-- In this history a class without its superclass is renamed, and another class has a field of its
type. -/
def withRenaming : List Command :=
  [.addPackage "p", .declare "p" ((Declaration.newClass "A").withSupertype "q.Missing"),
    .declare "p" ((Declaration.newClass "B").withMember (.field ⟨"a", .ofText "p.A"⟩)),
    .edit ⟨0⟩ fun declaration => { declaration with name := "X" }]

/-- The renaming is taken back before the class is removed. -/
def withRecall : List Command :=
  withRenaming ++ [.edit ⟨0⟩ fun declaration => { declaration with name := "A" }]

/-- Taking the name back is an orderly history. -/
theorem withRecall_isOrderly : ∀ command ∈ withRecall, command.IsOrderly := by
  have orphan : ((Declaration.newClass "A").withSupertype "q.Missing").IsFresh :=
    ⟨by decide, by decide⟩
  have holder : ((Declaration.newClass "B").withMember (.field ⟨"a", .ofText "p.A"⟩)).IsFresh :=
    ⟨by decide, by decide⟩
  have renames : ∀ name, (Command.edit ⟨0⟩ fun declaration =>
      { declaration with name := name }).IsOrderly :=
    fun _ => ⟨trivial, fun _ tidy => ⟨tidy.marked, tidy.unsettled⟩⟩
  simp only [withRecall, withRenaming, List.cons_append, List.nil_append, List.forall_mem_cons]
  exact ⟨⟨trivial, trivial⟩, ⟨orphan.isTidy, trivial⟩, ⟨holder.isTidy, trivial⟩, renames _,
    renames _, by simp⟩

/-- With the old name back in place the removed class is forgotten, and no holder dangles. -/
theorem performAll_forgetsRemoved_withRecall :
    let options : Options := ⟨.removeDeclaration, none, false⟩
    let run := (Catalog.empty.performAll withRecall).resolve options
    (∀ command ∈ withRecall, command.IsOrderly) ∧
      ForgetsRemoved withRecall ∧
      Catalog.empty.RemovesAllWellFiled (withRecall ++ [.resolve options]) ∧
      run.summary.converged = true ∧ run.summary.removed = ["p.A"] ∧
      run.catalog.danglingHolders = [] := by
  intro options run
  have removes : Catalog.empty.RemovesAllWellFiled (withRecall ++ [.resolve options]) := by
    rw [← listsLive_iff]
    unfold ListsLive
    decide +kernel
  have converged : run.summary.converged = true := by decide +kernel
  have removed : run.summary.removed = ["p.A"] := by decide +kernel
  have forgets := performAll_forgetsRemoved withRecall_isOrderly
  exact ⟨withRecall_isOrderly, forgets, removes, converged, removed,
    forgets.settled options converged removes⟩

/-- A class that is renamed before a run removes it stays to be found under its old name, and the
run converges with a reference to it. -/
theorem resolve_withRenaming_dangles :
    let options : Options := ⟨.removeDeclaration, none, false⟩
    let run := (Catalog.empty.performAll withRenaming).resolve options
    run.summary.converged = true ∧ run.summary.removed = ["p.X"] ∧
      run.catalog.lookup? "p.A" = some ⟨0⟩ ∧ run.catalog.isLive ⟨0⟩ = false ∧
      run.catalog.danglingHolders = ["p.B"] := by
  decide +kernel

end Catalog

end TypeGraph
