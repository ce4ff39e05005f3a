import TypeGraph.Proofs.Resolution.Tidiness

/-!
This file shows that settling a whole declaration fills it in silence: nothing is counted and no
event arises. A declaration that stood and was filled is whole in the same lookup.
-/

namespace TypeGraph

section Slots

variable {lookup : Lookup} {scopes : List Scope}

/-- A whole bound resolves unless it was given up before. -/
def Bound.IsWhole (lookup : Lookup) (scopes : List Scope) (bound : Bound) : Prop :=
  bound.unresolvable = false → bound.slot.Resolves lookup scopes

/-- All bounds of whole type parameters are whole. -/
def TypeParameter.AreWhole (lookup : Lookup) (scopes : List Scope)
    (parameters : List TypeParameter) : Prop :=
  ∀ parameter ∈ parameters, ∀ bound ∈ parameter.bounds, bound.IsWhole lookup scopes

theorem Bound.IsWhole.failure?_eq_none {bound : Bound} (whole : bound.IsWhole lookup scopes) :
    bound.failure? lookup scopes = none := by
  unfold Bound.failure?
  cases marked : bound.unresolvable with
  | true => rfl
  | false =>
      have settled := Slot.settle_eq_ok_iff.mpr ⟨whole marked, rfl⟩
      simp [settled]

/-- A filled bound is whole, since it is marked if it fails. -/
theorem Bound.isWhole_fill (bound : Bound) : (bound.fill lookup scopes).IsWhole lookup scopes := by
  intro unmarked
  unfold Bound.fill at unmarked ⊢
  split
  next marked => simp [marked] at unmarked
  next untried => simpa [untried] using unmarked

theorem TypeParameter.areWhole_fill (parameters : List TypeParameter) :
    AreWhole lookup scopes (parameters.map fun parameter => parameter.fill lookup scopes) := by
  intro parameter introduced bound inside
  obtain ⟨original, -, rfl⟩ := List.mem_map.mp introduced
  obtain ⟨before, -, rfl⟩ := List.mem_map.mp inside
  exact before.isWhole_fill

/-- Whole type parameters are filled in silence. -/
theorem TypeParameter.AreWhole.settleAll_eq {parameters : List TypeParameter}
    (whole : AreWhole lookup scopes parameters) (holder : String) :
    settleAll lookup scopes holder parameters =
      ⟨parameters.map fun parameter => parameter.fill lookup scopes, .zero, []⟩ := by
  have none : failures lookup scopes parameters = [] := by
    rw [failures, List.flatMap_eq_nil_iff]
    intro parameter introduced
    rw [List.filterMap_eq_nil_iff]
    exact fun bound inside => (whole parameter introduced bound inside).failure?_eq_none
  simp only [settleAll, none, settle_eq_fill, failureEvents]
  rfl

end Slots

namespace Member

variable {site : Site}

/-- A whole member resolves together with its bounds. -/
structure IsWhole (site : Site) (member : Member) : Prop where
  resolves : member.Resolves site
  bounds : TypeParameter.AreWhole site.lookup (site.scopesOf member) member.typeParameters

theorem IsWhole.settle_eq {member : Member} (whole : member.IsWhole site) :
    member.settle site = ⟨some (member.fill site), .zero, []⟩ := by
  have bounds : (member.settleBounds site).tally = .zero ∧
      (member.settleBounds site).events = [] := by
    simp [settleBounds, whole.bounds.settleAll_eq]
  have own := settleOwn_settleBounds_eq_ok_iff.mpr ⟨whole.resolves, rfl⟩
  simp only [settle, own, bounds]

/-- A filled member that resolves is whole. -/
theorem Resolves.isWhole_fill {member : Member} (resolves : member.Resolves site) :
    (member.fill site).IsWhole site where
  resolves := by
    have same : (member.fill (site.through site.lookup)).Resolves site ↔ member.Resolves site :=
      resolves_fill_iff
    exact same.mpr resolves
  bounds := by
    rw [fill, scopesOf_fillIn, typeParameters_fillIn]
    exact TypeParameter.areWhole_fill _

theorem settleRound_of_isWhole {kind : MemberKind} {members : List Member}
    (whole : ∀ member ∈ members, member.kind = kind → member.IsWhole site) :
    settleRound site kind members = ⟨members.map (fillAmong site [kind]), .zero, []⟩ := by
  induction members with
  | nil => rfl
  | cons member rest inductionHypothesis =>
      obtain ⟨first, others⟩ := List.forall_mem_cons.mp whole
      by_cases sameKind : member.kind = kind
      · simp only [settleRound, inductionHypothesis others, if_pos sameKind,
          (first sameKind).settle_eq]
        simp [fillAmong, sameKind]
      · simp [settleRound, inductionHypothesis others, sameKind, fillAmong]

/-- Rounds over whole members fill those of their kinds in silence. -/
theorem settleRounds_of_isWhole {kinds : List MemberKind} (distinct : kinds.Nodup)
    {members : List Member}
    (whole : ∀ member ∈ members, member.kind ∈ kinds → member.IsWhole site) :
    settleRounds site kinds members = ⟨members.map (fillAmong site kinds), .zero, []⟩ := by
  have value : (settleRounds site kinds members).value = _ := settleRounds_value distinct members
  have all : members.filter (fun member => member.Survives site kinds) = members := by
    rw [List.filter_eq_self]
    intro member listed
    exact decide_eq_true fun settled => (whole member listed settled).resolves
  rw [all] at value
  suffices silent : (settleRounds site kinds members).tally = .zero ∧
      (settleRounds site kinds members).events = [] by
    rw [← value, ← silent.1, ← silent.2]
  clear value all
  induction kinds generalizing members with
  | nil => exact ⟨rfl, rfl⟩
  | cons kind rest inductionHypothesis =>
      obtain ⟨apart, distinctRest⟩ := List.nodup_cons.mp distinct
      have round : settleRound site kind members = _ :=
        settleRound_of_isWhole fun member listed sameKind =>
          whole member listed (sameKind ▸ List.mem_cons_self)
      -- Members of the later kinds pass through the first round unchanged.
      have later : ∀ filled ∈ members.map (fillAmong site [kind]), filled.kind ∈ rest →
          filled.IsWhole site := by
        intro filled listed settled
        obtain ⟨member, before, rfl⟩ := List.mem_map.mp listed
        rw [kind_fillAmong] at settled
        have different : member.kind ≠ kind := fun same => apart (same ▸ settled)
        simpa [fillAmong, different] using whole member before (List.mem_cons_of_mem _ settled)
      simp only [settleRounds, round, inductionHypothesis distinctRest later]
      exact ⟨rfl, rfl⟩

end Member

namespace Declaration

variable {lookup : Lookup} {policy : InterfacePolicy} {handle : Handle}

/-- A whole declaration loses nothing when it is settled, under either policy. -/
structure IsWhole (lookup : Lookup) (handle : Handle) (declaration : Declaration) : Prop where
  superclass : ∀ slot ∈ declaration.superclass?,
    slot.Resolves lookup [(declaration.site lookup handle).scope]
  interfaces : ∀ slot ∈ declaration.interfaces,
    slot.Resolves lookup [(declaration.site lookup handle).scope]
  bounds : TypeParameter.AreWhole lookup [(declaration.site lookup handle).scope]
    declaration.typeParameters
  members : ∀ member ∈ declaration.members, member.kind ∈ declaration.kind.settledMembers →
    member.IsWhole (declaration.site lookup handle)

end Declaration

theorem Slot.settleInterfaces_of_resolves {site : Site} {policy : InterfacePolicy}
    {slots : List Slot} (resolve : ∀ slot ∈ slots, slot.Resolves site.lookup [site.scope]) :
    settleInterfaces site policy slots =
      .ok ⟨slots.map fun slot => slot.fill site.lookup [site.scope], .zero, []⟩ := by
  induction slots with
  | nil => rfl
  | cons slot rest inductionHypothesis =>
      obtain ⟨first, others⟩ := List.forall_mem_cons.mp resolve
      have settled := Slot.settle_eq_ok_iff.mpr ⟨first, rfl⟩
      simp only [settleInterfaces, settled, inductionHypothesis others, List.map_cons]

namespace Declaration

variable {lookup : Lookup} {policy : InterfacePolicy} {handle : Handle}

/-- A whole declaration is filled in silence. -/
theorem IsWhole.settle_eq {declaration : Declaration} (whole : declaration.IsWhole lookup handle) :
    declaration.settle lookup policy handle =
      ⟨[], .ok (declaration.fill lookup handle, .zero)⟩ := by
  have kind := settle_kind_eq_ok_iff.mpr ⟨whole.superclass, rfl⟩
  have interfaces : Slot.settleInterfaces (declaration.site lookup handle) policy
      declaration.interfaces = _ := Slot.settleInterfaces_of_resolves whole.interfaces
  have bounds := whole.bounds.settleAll_eq declaration.qualifiedName
  have members := Member.settleRounds_of_isWhole declaration.kind.nodup_settledMembers whole.members
  have all : declaration.interfaces.filter (fun slot =>
      slot.Resolves lookup [(declaration.site lookup handle).scope]) = declaration.interfaces :=
    List.filter_eq_self.mpr fun slot listed => decide_eq_true (whole.interfaces slot listed)
  have survivors : declaration.members.filter (fun member =>
      member.Survives (declaration.site lookup handle) declaration.kind.settledMembers) =
        declaration.members :=
    List.filter_eq_self.mpr fun member listed =>
      decide_eq_true fun settled => (whole.members member listed settled).resolves
  have sameBounds : declaration.settleBounds (declaration.site lookup handle) = _ := bounds
  simp only [settle, kind, interfaces, sameBounds, members, fill, all, survivors]
  rfl

/-- A declaration that stood is whole once it is filled. -/
theorem Stands.isWhole_fill {declaration : Declaration}
    (stands : declaration.Stands lookup policy handle) :
    (declaration.fill lookup handle).IsWhole lookup handle := by
  have sameSite := site_fill declaration lookup lookup handle
  have sameKinds : (declaration.fill lookup handle).kind.settledMembers =
      declaration.kind.settledMembers := DeclarationKind.settledMembers_fill _ _
  constructor
  · rw [sameSite, superclass?_fill]
    intro slot inside
    obtain ⟨original, present, rfl⟩ := Option.map_eq_some_iff.mp inside
    exact stands.1 original present
  · rw [sameSite]
    intro slot inside
    obtain ⟨original, kept, rfl⟩ := List.mem_map.mp inside
    exact of_decide_eq_true (List.mem_filter.mp kept).2
  · rw [sameSite]
    exact TypeParameter.areWhole_fill declaration.typeParameters
  · rw [sameSite, sameKinds]
    intro filled listed settled
    obtain ⟨member, resolves, rfl⟩ := exists_resolves_of_mem_members_fill listed settled
    exact resolves.isWhole_fill

/-- What settling left of a declaration settles to itself in silence. -/
theorem Stands.settle_fill {declaration : Declaration}
    (stands : declaration.Stands lookup policy handle) :
    (declaration.fill lookup handle).settle lookup policy handle =
      ⟨[], .ok (declaration.fill lookup handle, .zero)⟩ := by
  rw [stands.isWhole_fill.settle_eq, fill_fill (.refl lookup)]

end Declaration

end TypeGraph
