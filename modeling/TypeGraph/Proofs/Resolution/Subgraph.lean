import Mathlib.Order.Bounds.Basic
import TypeGraph.Proofs.Resolution.Converged
import TypeGraph.Proofs.Resolution.Descent

/-!
This file shows that a run without a limit of passes keeps the largest set of declarations that
support one another, whatever the order in which the others are removed, and that it cuts each
kept declaration down to the parts that resolve inside that set.
-/

namespace TypeGraph

/-- A settled bound holds its reference, or it has none and is marked. -/
def Bound.IsSettled (lookup : Lookup) (scopes : List Scope) (bound : Bound) : Prop :=
  bound.slot.reference = (resolveText lookup scopes bound.slot.text).toOption ∧
    bound.unresolvable = bound.slot.reference.isNone

/-- All bounds of a declaration and of its members are settled. -/
def Declaration.HasSettledBounds (lookup : Lookup) (handle : Handle)
    (declaration : Declaration) : Prop :=
  let site := declaration.site lookup handle
  (∀ parameter ∈ declaration.typeParameters, ∀ bound ∈ parameter.bounds,
    bound.IsSettled lookup [site.scope]) ∧
  ∀ member ∈ declaration.members, ∀ parameter ∈ member.typeParameters,
    ∀ bound ∈ parameter.bounds, bound.IsSettled lookup (site.scopesOf member)

theorem Bound.isSettled_fill {lookup : Lookup} {scopes : List Scope} {bound : Bound}
    (unmarked : bound.unresolvable = false) :
    (bound.fill lookup scopes).IsSettled lookup scopes := by
  have filled : bound.fill lookup scopes =
      ⟨bound.slot.fill lookup scopes, decide (¬ bound.slot.Resolves lookup scopes)⟩ := by
    rw [Bound.fill, if_neg (by simp [unmarked])]
  rw [filled]
  refine ⟨rfl, ?_⟩
  by_cases resolves : bound.slot.Resolves lookup scopes
  · obtain ⟨reference, found⟩ := resolves
    have held : (bound.slot.fill lookup scopes).reference = some reference := by
      simp [Slot.fill, found, Except.toOption]
    have stands : bound.slot.Resolves lookup scopes := ⟨reference, found⟩
    simp [held, stands]
  · simp [resolves, Slot.fill_of_not_resolves resolves]

/-- Constructors and fields introduce no bounds, and the bounds of methods are always filled. -/
theorem Member.typeParameters_fillAmong (site : Site) (kind : DeclarationKind) (member : Member) :
    (member.fillAmong site kind.settledMembers).typeParameters =
      member.typeParameters.map fun parameter =>
        parameter.fill site.lookup (site.scopesOf member) := by
  unfold Member.fillAmong
  split
  next => exact Member.typeParameters_fillIn _ _ member
  next outside =>
    cases member with
    | field content => rfl
    | constructor content => rfl
    | method content =>
        have settled : MemberKind.method ∈ kind.settledMembers := by
          cases kind <;> simp [DeclarationKind.settledMembers]
        exact absurd settled outside

/-- The bounds of a filled declaration are settled when none of them was marked before. -/
theorem Declaration.hasSettledBounds_fill (lookup : Lookup) (handle : Handle)
    {declaration : Declaration}
    (unmarked : ∀ bound ∈ declaration.bounds, bound.unresolvable = false) :
    (declaration.fill lookup handle).HasSettledBounds lookup handle := by
  have filled : ∀ scopes (parameters : List TypeParameter),
      (∀ parameter ∈ parameters, ∀ bound ∈ parameter.bounds, bound ∈ declaration.bounds) →
      ∀ parameter ∈ parameters.map (fun parameter => parameter.fill lookup scopes),
        ∀ bound ∈ parameter.bounds, bound.IsSettled lookup scopes := by
    intro scopes parameters belongs parameter introduced bound inside
    obtain ⟨original, among, rfl⟩ := List.mem_map.mp introduced
    obtain ⟨before, listed, rfl⟩ := List.mem_map.mp inside
    exact Bound.isSettled_fill (unmarked before (belongs original among before listed))
  unfold Declaration.HasSettledBounds
  rw [Declaration.site_fill]
  refine ⟨filled _ _ ?_, ?_⟩
  · intro parameter introduced bound inside
    exact Declaration.mem_bounds_iff.mpr (.inl ⟨parameter, introduced, inside⟩)
  · intro later listed
    obtain ⟨member, declared, -, rfl⟩ := Declaration.mem_members_fill_iff.mp listed
    have sameScopes : (declaration.site lookup handle).scopesOf
        (member.fillAmong (declaration.site lookup handle) declaration.kind.settledMembers) =
          (declaration.site lookup handle).scopesOf member := by
      unfold Member.fillAmong
      split
      next => exact Member.scopesOf_fillIn _ _ _ member
      next => rfl
    rw [sameScopes, Member.typeParameters_fillAmong]
    refine filled _ member.typeParameters ?_
    intro parameter introduced bound inside
    exact Declaration.mem_bounds_iff.mpr (.inr ⟨member, declared, parameter, introduced, inside⟩)

namespace Catalog

variable {catalog start current : Catalog} {policy : InterfacePolicy} {options : Options}

theorem Descends.mem_liveHandles_iff (descends : Descends start policy current)
    {handle : Handle} (listed : handle ∈ start.handles) :
    handle ∈ current.liveHandles ↔ current.isLive handle = true := by
  rw [Catalog.mem_liveHandles_iff, descends.handles_eq, List.mem_filter]
  exact ⟨And.right, fun live => ⟨⟨listed, live⟩, live⟩⟩

/-- What is found at the end is what the survivors offer. -/
theorem Descends.lookup?_eq_liveHandles (descends : Descends start policy current) :
    current.lookup? = start.lookupWithin fun handle => handle ∈ current.liveHandles := by
  rw [descends.lookup?_eq]
  apply lookupWithin_congr
  intro handle listed
  rw [Bool.eq_iff_iff, decide_eq_true_iff, descends.mem_liveHandles_iff listed]

/-- A quiet pass on the way down leaves each survivor as its original, filled with what is found
at the end, and the original stands there. -/
theorem Descends.survivor (indexed : start.Indexed) (descends : Descends start policy current)
    (quiet : (current.pass policy).removed = []) {handle : Handle} {declaration : Declaration}
    (listed : handle ∈ start.handles)
    (found : (current.pass policy).catalog.declaration? handle = some declaration) :
    ∃ original, start.declaration? handle = some original ∧
      original.Stands (current.pass policy).catalog.lookup? policy handle ∧
      declaration = original.fill (current.pass policy).catalog.lookup? handle := by
  obtain ⟨packages, registry, filled⟩ := sweep_quiet quiet
  have sameLookup : (current.pass policy).catalog.lookup? = current.lookup? :=
    lookup?_congr packages registry
  have inside : handle ∈ current.handles := by
    have sameHandles : (current.pass policy).catalog.handles = current.handles := by
      rw [handles, handles, Catalog.pass, packages]
    rw [← sameHandles, (descends.pass indexed).handles_eq, List.mem_filter, isLive, found]
    exact ⟨listed, rfl⟩
  have live := descends.indexed.isLive_of_mem_handles inside
  obtain ⟨before, isBefore⟩ := Option.isSome_iff_exists.mp live
  have final := filled handle before isBefore
  rw [if_pos (mem_visitOrder_iff.mpr ⟨inside, live⟩)] at final
  obtain ⟨stands, place⟩ := final
  obtain ⟨original, isOriginal, descent⟩ := descends.places handle listed before isBefore
  refine ⟨original, isOriginal, ?_, ?_⟩
  · rw [sameLookup, ← descent.stands_iff]
    exact stands
  · rw [sameLookup, ← descent.fill_eq]
    exact Option.some.inj (found.symm.trans place)

/-- A run has come down when every survivor is its original, which stands among the survivors,
filled with what they offer. -/
structure HasDescended (start : Catalog) (policy : InterfacePolicy) (final : Catalog) : Prop
    extends Descends start policy final where
  survivor : ∀ handle ∈ start.handles, ∀ declaration,
    final.declaration? handle = some declaration → ∃ original,
      start.declaration? handle = some original ∧
        original.Stands (start.lookupWithin fun handle => handle ∈ final.liveHandles) policy
          handle ∧
        declaration =
          original.fill (start.lookupWithin fun handle => handle ∈ final.liveHandles) handle

/-- A run without a limit of passes comes down. -/
theorem Indexed.hasDescended (indexed : start.Indexed) (unlimited : options.passLimit = none) :
    HasDescended start options.policy (start.repeatPasses options 0).catalog := by
  obtain ⟨before, descends, quiet, same⟩ := (repeatPasses_invariant
    (fun _ middle => middle.pass indexed) (Descends.refl indexed options.policy) 0).2
      (repeatPasses_converged unlimited start 0)
  rw [same]
  have down := descends.pass indexed
  refine ⟨down, ?_⟩
  rw [← down.lookup?_eq_liveHandles]
  intro handle listed declaration found
  exact descends.survivor indexed quiet listed found

/-- Survivors were there at the start. -/
theorem Descends.mem_handles (descends : Descends start policy current) {handle : Handle}
    (listed : handle ∈ current.handles) : handle ∈ start.handles := by
  rw [descends.handles_eq] at listed
  exact (List.mem_filter.mp listed).1

/-- The survivors support themselves, and every set that supports itself survives. -/
theorem HasDescended.isGreatest (indexed : start.Indexed)
    (descended : HasDescended start policy current) :
    IsGreatest {kept | kept ⊆ start.liveHandles ∧ start.Supports policy kept}
      current.liveHandles := by
  have started : ∀ handle ∈ current.liveHandles, handle ∈ start.handles := by
    intro handle live
    exact descended.toDescends.mem_handles (Catalog.mem_liveHandles_iff.mp live).1
  have subset : current.liveHandles ⊆ start.liveHandles := by
    intro handle live
    have listed := started handle live
    exact Catalog.mem_liveHandles_iff.mpr ⟨listed, indexed.isLive_of_mem_handles listed⟩
  have supports : start.Supports policy current.liveHandles := by
    intro handle live declaration found
    obtain ⟨later, isLater⟩ :=
      Option.isSome_iff_exists.mp (Catalog.mem_liveHandles_iff.mp live).2
    obtain ⟨original, isOriginal, stands, -⟩ :=
      descended.survivor handle (started handle live) later isLater
    obtain rfl : original = declaration := Option.some.inj (isOriginal.symm.trans found)
    exact stands
  refine ⟨⟨subset, supports⟩, ?_⟩
  intro kept self handle member
  obtain ⟨subset, supports⟩ := self
  have listed := (Catalog.mem_liveHandles_iff.mp (subset member)).1
  rw [descended.toDescends.mem_liveHandles_iff listed]
  exact descended.supported kept subset supports handle member

/-- The survivors of an unlimited run are the largest set of live declarations that supports
itself, and each of them is its original with exactly the parts that resolve among the survivors. -/
theorem Reachable.resolve_largest (reachable : catalog.Reachable)
    (unlimited : options.passLimit = none)
    (unmarked : ∀ entry ∈ catalog.declarations, ∀ bound ∈ entry.2.bounds,
      bound.unresolvable = false) :
    let start := (catalog.prepare options).1
    let final := (catalog.resolve options).catalog
    let within := start.lookupWithin fun handle => handle ∈ final.liveHandles
    IsGreatest {kept | kept ⊆ start.liveHandles ∧ start.Supports options.policy kept}
        final.liveHandles ∧
      ∀ entry ∈ final.declarations, ∃ original, start.declaration? entry.1 = some original ∧
        entry.2 = original.fill within entry.1 ∧ entry.2.HasSettledBounds within entry.1 := by
  intro start final within
  have indexed : start.Indexed := (reachable.prepare options).indexed
  have descended : HasDescended start options.policy final := indexed.hasDescended unlimited
  refine ⟨descended.isGreatest indexed, ?_⟩
  intro entry listed
  obtain ⟨inside, found⟩ := mem_declarations_iff.mp listed
  have started : entry.1 ∈ start.handles := descended.toDescends.mem_handles inside
  obtain ⟨original, isOriginal, -, filled⟩ := descended.survivor entry.1 started entry.2 found
  have declared : (entry.1, original) ∈ catalog.declarations := by
    rw [← reachable.indexed.declarations_prepare options]
    exact mem_declarations_iff.mpr ⟨started, isOriginal⟩
  refine ⟨original, isOriginal, filled, ?_⟩
  rw [filled]
  exact Declaration.hasSettledBounds_fill within entry.1 (unmarked (entry.1, original) declared)

/-- The run with a loss has no limit and no marks, so its survivors are the largest such set. -/
theorem resolve_largest_withLoss :
    let options : Options := ⟨.removeDeclaration, none, false⟩
    let start := (withLoss.prepare options).1
    let final := (withLoss.resolve options).catalog
    let within := start.lookupWithin fun handle => handle ∈ final.liveHandles
    withLoss.Reachable ∧ options.passLimit = none ∧
      IsGreatest {kept | kept ⊆ start.liveHandles ∧ start.Supports options.policy kept}
        final.liveHandles ∧
      ∀ entry ∈ final.declarations, ∃ original, start.declaration? entry.1 = some original ∧
        entry.2 = original.fill within entry.1 ∧ entry.2.HasSettledBounds within entry.1 := by
  intro options start final within
  have unmarked : ∀ entry ∈ withLoss.declarations, ∀ bound ∈ entry.2.bounds,
      bound.unresolvable = false := by decide
  exact ⟨withLoss_reachable, rfl, withLoss_reachable.resolve_largest rfl unmarked⟩

end Catalog

end TypeGraph
