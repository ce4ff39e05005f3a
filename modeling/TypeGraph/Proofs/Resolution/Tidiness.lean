import TypeGraph.Proofs.Resolution.Absorption

/-!
This file shows that references never stay where they are not kept up. A fresh declaration has no
references, and filling it leaves none in marked bounds and in members that never settle.
-/

namespace TypeGraph

/-- The bounds of a declaration are those of its own type parameters and of its members. -/
def Declaration.bounds (declaration : Declaration) : List Bound :=
  (declaration.typeParameters ++ declaration.members.flatMap Member.typeParameters).flatMap
    TypeParameter.bounds

/-- A fresh declaration has texts only: no reference was found and no bound has failed. -/
structure Declaration.IsFresh (declaration : Declaration) : Prop where
  unresolved : ∀ slot ∈ declaration.slots, slot.reference = none
  unmarked : ∀ bound ∈ declaration.bounds, bound.unresolvable = false

/-- A tidy declaration holds no reference in marked bounds and in members that never settle. -/
structure Declaration.IsTidy (declaration : Declaration) : Prop where
  marked : ∀ bound ∈ declaration.bounds, bound.unresolvable = true → bound.slot.reference = none
  unsettled : ∀ member ∈ declaration.members, member.kind ∉ declaration.kind.settledMembers →
    ∀ slot ∈ member.slots, slot.reference = none

namespace Declaration

theorem mem_bounds_iff {declaration : Declaration} {bound : Bound} :
    bound ∈ declaration.bounds ↔
      (∃ parameter ∈ declaration.typeParameters, bound ∈ parameter.bounds) ∨
        ∃ member ∈ declaration.members, ∃ parameter ∈ member.typeParameters,
          bound ∈ parameter.bounds := by
  simp only [bounds, List.flatMap_append, List.mem_append, List.mem_flatMap]
  apply or_congr_right
  constructor
  · intro owned
    obtain ⟨parameter, ⟨member, listed, introduced⟩, inside⟩ := owned
    exact ⟨member, listed, parameter, introduced, inside⟩
  · intro owned
    obtain ⟨member, listed, parameter, introduced, inside⟩ := owned
    exact ⟨parameter, ⟨member, listed, introduced⟩, inside⟩

/-- What fills every part of a declaration holds of it when it holds of the filled parts. -/
theorem mem_members_fill_iff {declaration : Declaration} {lookup : Lookup} {handle : Handle}
    {filled : Member} :
    filled ∈ (declaration.fill lookup handle).members ↔
      ∃ member ∈ declaration.members,
        member.Survives (declaration.site lookup handle) declaration.kind.settledMembers ∧
          member.fillAmong (declaration.site lookup handle) declaration.kind.settledMembers =
            filled := by
  simp [fill, and_assoc]

/-- A filled member of a settled kind is a member that resolved. -/
theorem exists_resolves_of_mem_members_fill {declaration : Declaration} {lookup : Lookup}
    {handle : Handle} {filled : Member} (listed : filled ∈ (declaration.fill lookup handle).members)
    (settled : filled.kind ∈ declaration.kind.settledMembers) :
    ∃ member : Member, member.Resolves (declaration.site lookup handle) ∧
      member.fill (declaration.site lookup handle) = filled := by
  obtain ⟨member, -, survives, rfl⟩ := mem_members_fill_iff.mp listed
  rw [Member.kind_fillAmong] at settled
  exact ⟨member, survives settled, by rw [Member.fillAmong, if_pos settled]⟩

/-- A fresh declaration is tidy. -/
theorem IsFresh.isTidy {declaration : Declaration} (fresh : declaration.IsFresh) :
    declaration.IsTidy where
  marked := by
    intro bound listed marked
    rw [fresh.unmarked bound listed] at marked
    cases marked
  unsettled := by
    intro member listed _ slot inside
    apply fresh.unresolved slot
    exact List.mem_append_right _ (List.mem_flatMap_of_mem listed inside)

theorem isTidy_bound_fill {lookup : Lookup} {scopes : List Scope} {bound : Bound}
    (tidy : bound.unresolvable = true → bound.slot.reference = none)
    (marked : (bound.fill lookup scopes).unresolvable = true) :
    (bound.fill lookup scopes).slot.reference = none := by
  unfold Bound.fill at marked ⊢
  split
  next final => exact tidy final
  next unmarked =>
    rw [if_neg unmarked] at marked
    exact congrArg Slot.reference (Slot.fill_of_not_resolves (of_decide_eq_true marked))

/-- A tidy declaration stays tidy when it is filled. -/
theorem IsTidy.fill {declaration : Declaration} (tidy : declaration.IsTidy) (lookup : Lookup)
    (handle : Handle) : (declaration.fill lookup handle).IsTidy where
  marked := by
    intro bound listed
    rcases mem_bounds_iff.mp listed with ⟨parameter, introduced, inside⟩ |
      ⟨filled, listed, parameter, introduced, inside⟩
    · obtain ⟨original, declared, rfl⟩ := List.mem_map.mp introduced
      obtain ⟨before, among, rfl⟩ := List.mem_map.mp inside
      exact isTidy_bound_fill (tidy.marked before (mem_bounds_iff.mpr
        (.inl ⟨original, declared, among⟩)))
    · obtain ⟨member, declared, -, rfl⟩ := mem_members_fill_iff.mp listed
      unfold Member.fillAmong at introduced
      split at introduced
      next =>
        rw [Member.fill, Member.typeParameters_fillIn] at introduced
        obtain ⟨original, owned, rfl⟩ := List.mem_map.mp introduced
        obtain ⟨before, among, rfl⟩ := List.mem_map.mp inside
        exact isTidy_bound_fill (tidy.marked before (mem_bounds_iff.mpr
          (.inr ⟨member, declared, original, owned, among⟩)))
      next =>
        exact tidy.marked bound (mem_bounds_iff.mpr
          (.inr ⟨member, declared, parameter, introduced, inside⟩))
  unsettled := by
    intro filled listed outside
    obtain ⟨member, declared, -, rfl⟩ := mem_members_fill_iff.mp listed
    have sameKinds : (declaration.fill lookup handle).kind.settledMembers =
        declaration.kind.settledMembers := DeclarationKind.settledMembers_fill _ _
    rw [sameKinds, Member.kind_fillAmong] at outside
    rw [Member.fillAmong, if_neg outside]
    exact tidy.unsettled member declared outside

end Declaration

end TypeGraph
