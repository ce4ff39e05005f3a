import TypeGraph.Proofs.Catalog.Reachable

/-!
This file shows what a converged run leaves behind. Every slot that counts holds the reference that
its text has in the final catalog, and no reference leads to a declaration that is gone.
-/

namespace TypeGraph

/-- An owner belongs to the declaration that introduces the variable or has the method. -/
def VariableOwner.declaring : VariableOwner → Handle
  | .declaration declaring => declaring
  | .method declaring _ => declaring

/-- The scopes of a site belong to its declaration. -/
theorem Site.declaring_of_mem_scopesOf {site : Site} {member : Member} {scope : Scope}
    (inside : scope ∈ site.scopesOf member) : scope.owner.declaring = site.handle := by
  cases member with
  | field content =>
      rw [List.mem_singleton.mp inside]
      rfl
  | constructor content =>
      rw [List.mem_singleton.mp inside]
      rfl
  | method content =>
      rcases List.mem_cons.mp inside with rfl | outer
      · rfl
      · rw [List.mem_singleton.mp outer]
        rfl

/-- A slot is resolved in a catalog when it holds the reference of its text there, and every
declared node of the reference leads to a live declaration of that name. -/
def Slot.ResolvedIn (catalog : Catalog) (scopes : List Scope) (slot : Slot) : Prop :=
  ∃ reference, slot.reference = some reference ∧
    resolveText catalog.lookup? scopes slot.text = .ok reference ∧
    ∀ node ∈ reference.declaredNodes, catalog.qualifiedName? node.1 = some node.2

/-- The bounds of type parameters are resolved except for those that were marked. -/
def TypeParameter.ResolvedIn (catalog : Catalog) (scopes : List Scope)
    (parameters : List TypeParameter) : Prop :=
  ∀ parameter ∈ parameters, ∀ bound ∈ parameter.bounds, bound.unresolvable = false →
    bound.slot.ResolvedIn catalog scopes

/-- A declaration is resolved in a catalog when all of its slots are, each in its own scopes.
Marked bounds and the constructors of an interface do not count. -/
structure Declaration.ResolvedIn (catalog : Catalog) (handle : Handle)
    (declaration : Declaration) : Prop where
  superclass : ∀ slot ∈ declaration.superclass?,
    slot.ResolvedIn catalog [(declaration.site catalog.lookup? handle).scope]
  interfaces : ∀ slot ∈ declaration.interfaces,
    slot.ResolvedIn catalog [(declaration.site catalog.lookup? handle).scope]
  bounds : TypeParameter.ResolvedIn catalog [(declaration.site catalog.lookup? handle).scope]
    declaration.typeParameters
  ownSlots : ∀ member ∈ declaration.members, member.kind ∈ declaration.kind.settledMembers →
    ∀ slot ∈ member.ownSlots,
      slot.ResolvedIn catalog ((declaration.site catalog.lookup? handle).scopesOf member)
  memberBounds : ∀ member ∈ declaration.members,
    member.kind ∈ declaration.kind.settledMembers →
      TypeParameter.ResolvedIn catalog
        ((declaration.site catalog.lookup? handle).scopesOf member) member.typeParameters

namespace Catalog

variable {catalog : Catalog}

/-- A step leads from one reachable catalog to another. -/
theorem Reachable.step (reachable : catalog.Reachable) (policy : InterfacePolicy)
    (handle : Handle) : (catalog.step policy handle).catalog.Reachable := by
  have visited := reachable.visit policy handle
  unfold Catalog.step
  dsimp only
  split
  next => exact visited
  next => exact visited.remove handle

/-- A pass leads from one reachable catalog to another. -/
theorem Reachable.pass (reachable : catalog.Reachable) (policy : InterfacePolicy) :
    (catalog.pass policy).catalog.Reachable :=
  sweep_invariant (fun handle _ _ before => before.step policy handle) reachable

/-- Preparation leads from one reachable catalog to another. -/
theorem Reachable.prepare (reachable : catalog.Reachable) (options : Options) :
    (catalog.prepare options).1.Reachable := by
  rw [fst_prepare]
  split
  next => exact reachable.installStandard
  next => exact reachable

/-- A run that converged ends with a pass over a reachable catalog that removed nothing. -/
theorem Reachable.exists_quiet_pass (reachable : catalog.Reachable) {options : Options}
    (converged : (catalog.resolve options).summary.converged = true) :
    ∃ before : Catalog, before.Reachable ∧ (before.pass options.policy).removed = [] ∧
      (catalog.resolve options).catalog = (before.pass options.policy).catalog := by
  rw [summary_resolve] at converged
  exact (repeatPasses_invariant (fun _ middle => middle.pass options.policy)
    (reachable.prepare options) 0).2 converged

end Catalog

/-! ### Filled declarations are resolved -/

section Filled

variable {catalog : Catalog} {scopes : List Scope}

/-- A slot that resolves is resolved in the catalog as soon as it is filled. -/
theorem Slot.Resolves.resolvedIn_fill (indexed : catalog.Indexed) {slot : Slot}
    (resolves : slot.Resolves catalog.lookup? scopes) :
    (slot.fill catalog.lookup? scopes).ResolvedIn catalog scopes := by
  obtain ⟨reference, found⟩ := resolves
  refine ⟨reference, by simp [Slot.fill, found, Except.toOption], found, ?_⟩
  intro node inside
  apply indexed.qualifiedName?_of_lookup?
  exact lookup_of_mem_declaredNodes_of_resolveText found node inside

/-- Filled bounds are resolved in the catalog unless they are marked. -/
theorem TypeParameter.resolvedIn_fill (indexed : catalog.Indexed)
    (parameters : List TypeParameter) :
    TypeParameter.ResolvedIn catalog scopes
      (parameters.map fun parameter => parameter.fill catalog.lookup? scopes) := by
  intro parameter introduced bound inside unmarked
  obtain ⟨original, -, rfl⟩ := List.mem_map.mp introduced
  obtain ⟨before, -, rfl⟩ := List.mem_map.mp inside
  unfold Bound.fill at unmarked ⊢
  split
  next marked =>
    rw [if_pos marked] at unmarked
    rw [marked] at unmarked
    cases unmarked
  next untried =>
    rw [if_neg untried] at unmarked
    exact Slot.Resolves.resolvedIn_fill indexed (by simpa using unmarked)

/-- A declaration that stands is resolved once it is filled. -/
theorem Declaration.Stands.resolvedIn_fill (indexed : catalog.Indexed) {policy : InterfacePolicy}
    {handle : Handle} {declaration : Declaration}
    (stands : declaration.Stands catalog.lookup? policy handle) :
    (declaration.fill catalog.lookup? handle).ResolvedIn catalog handle := by
  have sameSite := Declaration.site_fill declaration catalog.lookup? catalog.lookup? handle
  have sameKinds : (declaration.fill catalog.lookup? handle).kind.settledMembers =
      declaration.kind.settledMembers := DeclarationKind.settledMembers_fill _ _
  constructor
  · rw [sameSite, Declaration.superclass?_fill]
    intro slot inside
    obtain ⟨original, present, rfl⟩ := Option.map_eq_some_iff.mp inside
    exact (stands.1 original present).resolvedIn_fill indexed
  · rw [sameSite]
    intro slot inside
    obtain ⟨original, kept, rfl⟩ := List.mem_map.mp inside
    have resolves := of_decide_eq_true (List.mem_filter.mp kept).2
    exact Slot.Resolves.resolvedIn_fill indexed resolves
  · rw [sameSite]
    exact TypeParameter.resolvedIn_fill indexed declaration.typeParameters
  · rw [sameSite, sameKinds]
    intro filled listed settled slot own
    obtain ⟨member, resolves, rfl⟩ :=
      Declaration.exists_resolves_of_mem_members_fill listed settled
    rw [Member.fill, Member.ownSlots_fillIn] at own
    rw [Member.fill, Member.scopesOf_fillIn]
    obtain ⟨original, inside, rfl⟩ := List.mem_map.mp own
    exact (resolves original inside).resolvedIn_fill indexed
  · rw [sameSite, sameKinds]
    intro filled listed settled
    obtain ⟨member, -, rfl⟩ := Declaration.exists_resolves_of_mem_members_fill listed settled
    rw [Member.fill, Member.scopesOf_fillIn, Member.typeParameters_fillIn]
    exact TypeParameter.resolvedIn_fill indexed member.typeParameters

/-- Every reference of a resolved and tidy declaration is that of a slot that is resolved in scopes
of this declaration. -/
theorem Declaration.ResolvedIn.exists_slot {handle : Handle} {declaration : Declaration}
    (resolved : declaration.ResolvedIn catalog handle) (tidy : declaration.IsTidy)
    {reference : Reference} (holds : reference ∈ declaration.references) :
    ∃ slot : Slot, ∃ scopes, slot.reference = some reference ∧ slot.ResolvedIn catalog scopes ∧
      ∀ scope ∈ scopes, scope.owner.declaring = handle := by
  have ofDeclaration : ∀ scope ∈ [(declaration.site catalog.lookup? handle).scope],
      scope.owner.declaring = handle := by
    intro scope inside
    rw [List.mem_singleton.mp inside]
    rfl
  have ofMember : ∀ member : Member,
      ∀ scope ∈ (declaration.site catalog.lookup? handle).scopesOf member,
        scope.owner.declaring = handle :=
    fun member scope inside => Site.declaring_of_mem_scopesOf inside
  have fromBound : ∀ scopes (parameters : List TypeParameter),
      TypeParameter.ResolvedIn catalog scopes parameters →
      (∀ parameter ∈ parameters, ∀ bound ∈ parameter.bounds, bound ∈ declaration.bounds) →
      ∀ slot ∈ TypeParameter.slots parameters, slot.reference = some reference →
        slot.ResolvedIn catalog scopes := by
    intro scopes parameters resolvedBounds belongs slot inside held
    obtain ⟨parameter, introduced, among⟩ := List.mem_flatMap.mp inside
    obtain ⟨bound, listed, rfl⟩ := List.mem_map.mp among
    cases marked : bound.unresolvable with
    | true =>
        rw [tidy.marked bound (belongs parameter introduced bound listed) marked] at held
        cases held
    | false => exact resolvedBounds parameter introduced bound listed marked
  obtain ⟨slot, inside, held⟩ := List.mem_filterMap.mp holds
  simp only [Declaration.slots, List.mem_append, Option.mem_toList, List.mem_flatMap] at inside
  rcases inside with ((superclass | interface) | bound) | ⟨member, listed, own⟩
  · exact ⟨slot, _, held, resolved.superclass slot superclass, ofDeclaration⟩
  · exact ⟨slot, _, held, resolved.interfaces slot interface, ofDeclaration⟩
  · refine ⟨slot, _, held, fromBound _ _ resolved.bounds ?_ slot bound held, ofDeclaration⟩
    intro parameter introduced bound among
    exact Declaration.mem_bounds_iff.mpr (.inl ⟨parameter, introduced, among⟩)
  · by_cases settled : member.kind ∈ declaration.kind.settledMembers
    · rcases List.mem_append.mp own with required | bound
      · exact ⟨slot, _, held, resolved.ownSlots member listed settled slot required,
          ofMember member⟩
      · refine ⟨slot, _, held, fromBound _ _ (resolved.memberBounds member listed settled) ?_ slot
          bound held, ofMember member⟩
        intro parameter introduced bound among
        exact Declaration.mem_bounds_iff.mpr (.inr ⟨member, listed, parameter, introduced, among⟩)
    · rw [tidy.unsettled member listed settled slot own] at held
      cases held

/-- No slot of a resolved and tidy declaration dangles. -/
theorem Declaration.ResolvedIn.not_dangles {handle : Handle} {declaration : Declaration}
    (resolved : declaration.ResolvedIn catalog handle) (tidy : declaration.IsTidy)
    {reference : Reference} (holds : reference ∈ declaration.references) :
    catalog.dangles reference = false := by
  obtain ⟨slot, scopes, held, ⟨other, same, -, named⟩, -⟩ := resolved.exists_slot tidy holds
  obtain rfl : other = reference := Option.some.inj (same.symm.trans held)
  rw [Catalog.dangles, Reference.targets_eq_map_declaredNodes, List.any_eq_false]
  intro target inside
  obtain ⟨node, among, rfl⟩ := List.mem_map.mp inside
  obtain ⟨declaration, found, -⟩ := Option.map_eq_some_iff.mp (named node among)
  simp [Catalog.isLive, found]

/-- The type variables of a resolved and tidy declaration are its own. -/
theorem Declaration.ResolvedIn.declaring_eq {handle : Handle} {declaration : Declaration}
    (resolved : declaration.ResolvedIn catalog handle) (tidy : declaration.IsTidy)
    {reference : Reference} (holds : reference ∈ declaration.references) :
    ∀ owned ∈ reference.typeVariables, owned.2.declaring = handle := by
  obtain ⟨slot, scopes, held, ⟨other, same, found, -⟩, belong⟩ := resolved.exists_slot tidy holds
  obtain rfl : other = reference := Option.some.inj (same.symm.trans held)
  intro owned inside
  obtain ⟨scope, isFirst, owner⟩ :=
    Option.map_eq_some_iff.mp (owner?_of_mem_typeVariables_of_resolveText found owned inside)
  rw [← owner]
  exact belong scope (List.mem_of_find?_eq_some isFirst)

end Filled

namespace Catalog

variable {catalog : Catalog} {options : Options}

/-- A pass that removes nothing leaves every declaration of the packages resolved. -/
theorem Indexed.resolvedIn_of_quiet_pass (indexed : catalog.Indexed) {policy : InterfacePolicy}
    (quiet : (catalog.pass policy).removed = []) {handle : Handle} {declaration : Declaration}
    (listed : (handle, declaration) ∈ (catalog.pass policy).catalog.declarations)
    (later : (catalog.pass policy).catalog.Indexed) :
    declaration.ResolvedIn (catalog.pass policy).catalog handle := by
  obtain ⟨packages, registry, filled⟩ := sweep_quiet quiet
  obtain ⟨inside, found⟩ := mem_declarations_iff.mp listed
  have sameHandles : (catalog.pass policy).catalog.handles = catalog.handles := by
    rw [handles, handles, pass, packages]
  rw [sameHandles] at inside
  have live := indexed.isLive_of_mem_handles inside
  obtain ⟨original, isOriginal⟩ := Option.isSome_iff_exists.mp live
  have final := filled handle original isOriginal
  rw [if_pos (mem_visitOrder_iff.mpr ⟨inside, live⟩)] at final
  obtain ⟨stands, place⟩ := final
  obtain rfl : original.fill catalog.lookup? handle = declaration :=
    Option.some.inj (place.symm.trans found)
  have sameLookup : (catalog.pass policy).catalog.lookup? = catalog.lookup? :=
    lookup?_congr packages registry
  rw [← sameLookup] at stands ⊢
  exact stands.resolvedIn_fill later

/-- A run that converges leaves every live declaration of the packages resolved in the final
catalog, and no declaration holds a dangling reference. -/
theorem Reachable.resolve_converged (reachable : catalog.Reachable)
    (converged : (catalog.resolve options).summary.converged = true) :
    (∀ entry ∈ (catalog.resolve options).catalog.declarations,
      entry.2.ResolvedIn (catalog.resolve options).catalog entry.1) ∧
      (catalog.resolve options).catalog.danglingHolders = [] := by
  have resolved : ∀ entry ∈ (catalog.resolve options).catalog.declarations,
      entry.2.ResolvedIn (catalog.resolve options).catalog entry.1 := by
    obtain ⟨before, reachableBefore, quiet, same⟩ := reachable.exists_quiet_pass converged
    rw [same]
    intro entry listed
    exact reachableBefore.indexed.resolvedIn_of_quiet_pass quiet listed
      (reachableBefore.pass options.policy).indexed
  refine ⟨resolved, ?_⟩
  rw [danglingHolders, List.map_eq_nil_iff, List.filter_eq_nil_iff]
  intro entry listed dangling
  obtain ⟨reference, holds, dangles⟩ := List.any_eq_true.mp dangling
  have tidy := (reachable.resolve options).isTidy entry.1 entry.2 (mem_declarations_iff.mp listed).2
  rw [(resolved entry listed).not_dangles tidy holds] at dangles
  cases dangles

/-- The run with a loss converges, so what is left is resolved and nothing dangles. -/
theorem resolve_converged_withLoss :
    withLoss.Reachable ∧
      (withLoss.resolve ⟨.removeDeclaration, none, false⟩).summary.converged = true ∧
      (∀ entry ∈ (withLoss.resolve ⟨.removeDeclaration, none, false⟩).catalog.declarations,
        entry.2.ResolvedIn (withLoss.resolve ⟨.removeDeclaration, none, false⟩).catalog entry.1) ∧
      (withLoss.resolve ⟨.removeDeclaration, none, false⟩).catalog.danglingHolders = [] := by
  have converged : (withLoss.resolve ⟨.removeDeclaration, none, false⟩).summary.converged = true :=
    by decide +kernel
  exact ⟨withLoss_reachable, converged, withLoss_reachable.resolve_converged converged⟩

end Catalog

end TypeGraph
