import TypeGraph.Proofs.Resolution.Member
import TypeGraph.Resolution.Declaration

/-!
This file says what settling a declaration amounts to. A declaration stands or falls with its
supertypes, and one that stands is cut down to the parts that resolve.
-/

namespace TypeGraph

namespace DeclarationKind

theorem nodup_settledMembers (kind : DeclarationKind) : kind.settledMembers.Nodup := by
  cases kind with
  | ofClass _ => exact (by decide : [MemberKind.field, .method, .constructor].Nodup)
  | ofInterface => exact (by decide : [MemberKind.field, .method].Nodup)

/-- The superclass of a class is filled. -/
def fill (site : Site) : DeclarationKind → DeclarationKind
  | .ofClass superclass =>
      .ofClass (superclass.map fun slot => slot.fill site.lookup [site.scope])
  | .ofInterface => .ofInterface

@[simp] theorem settledMembers_fill (site : Site) (kind : DeclarationKind) :
    (kind.fill site).settledMembers = kind.settledMembers := by
  cases kind <;> rfl

end DeclarationKind

namespace Declaration

variable (lookup : Lookup) (policy : InterfacePolicy) (handle : Handle)

/-- A declaration stands while its superclass resolves and, under the strict policy, also every
interface that it lists. -/
def Stands (declaration : Declaration) : Prop :=
  let site := declaration.site lookup handle
  (∀ slot ∈ declaration.superclass?, slot.Resolves lookup [site.scope]) ∧
    (policy = .removeDeclaration →
      ∀ slot ∈ declaration.interfaces, slot.Resolves lookup [site.scope])

/-- A filled declaration keeps what resolves, in its order, and fills it with references. -/
def fill (declaration : Declaration) : Declaration :=
  let site := declaration.site lookup handle
  { declaration with
    kind := declaration.kind.fill site
    typeParameters := declaration.typeParameters.map fun parameter =>
      parameter.fill lookup [site.scope]
    interfaces := (declaration.interfaces.filter fun slot =>
      slot.Resolves lookup [site.scope]).map fun slot => slot.fill lookup [site.scope]
    members := (declaration.members.filter fun member =>
      member.Survives site declaration.kind.settledMembers).map
        (Member.fillAmong site declaration.kind.settledMembers) }

variable {lookup policy handle}

theorem superclass?_fill (declaration : Declaration) :
    (declaration.fill lookup handle).superclass? =
      declaration.superclass?.map fun slot =>
        slot.fill lookup [(declaration.site lookup handle).scope] := by
  simp only [fill, superclass?, DeclarationKind.fill]
  cases declaration.kind <;> rfl

/-- The kind settles unless it is a class whose superclass fails. -/
theorem settle_kind_eq_ok_iff {declaration : Declaration} {settled : DeclarationKind} :
    declaration.kind.settle (declaration.site lookup handle) = .ok settled ↔
      (∀ slot ∈ declaration.superclass?,
        slot.Resolves lookup [(declaration.site lookup handle).scope]) ∧
      settled = declaration.kind.fill (declaration.site lookup handle) := by
  simp only [superclass?]
  cases declaration.kind with
  | ofInterface => simp [DeclarationKind.settle, DeclarationKind.fill, eq_comm]
  | ofClass superclass =>
      cases superclass with
      | none => simp [DeclarationKind.settle, DeclarationKind.fill, eq_comm]
      | some slot =>
          simp only [DeclarationKind.settle, DeclarationKind.fill]
          cases result : slot.settle (declaration.site lookup handle).lookup
              [(declaration.site lookup handle).scope] with
          | error unresolved =>
              have fails := Slot.settle_error_iff.mp ⟨unresolved, result⟩
              have fails' : ¬ slot.Resolves lookup [(declaration.site lookup handle).scope] := fails
              simp [fails']
          | ok filled =>
              obtain ⟨resolves, rfl⟩ := Slot.settle_eq_ok_iff.mp result
              have resolves' : slot.Resolves lookup [(declaration.site lookup handle).scope] :=
                resolves
              simp [resolves', eq_comm]

end Declaration

/-- Interface entries settle unless the policy is strict and one of them fails. -/
theorem Slot.settleInterfaces_spec (site : Site) (policy : InterfacePolicy) (slots : List Slot) :
    match Slot.settleInterfaces site policy slots with
    | .ok settled =>
        (policy = .removeDeclaration →
          ∀ slot ∈ slots, slot.Resolves site.lookup [site.scope]) ∧
        settled.value = (slots.filter fun slot => slot.Resolves site.lookup [site.scope]).map
          fun slot => slot.fill site.lookup [site.scope]
    | .error _ =>
        policy = .removeDeclaration ∧
          ¬ ∀ slot ∈ slots, slot.Resolves site.lookup [site.scope] := by
  induction slots with
  | nil => simp [settleInterfaces]
  | cons slot rest inductionHypothesis =>
      unfold settleInterfaces
      cases first : slot.settle site.lookup [site.scope] with
      | ok filled =>
          obtain ⟨resolves, rfl⟩ := Slot.settle_eq_ok_iff.mp first
          cases later : settleInterfaces site policy rest with
          | ok others =>
              simp only [later] at inductionHypothesis
              obtain ⟨all, value⟩ := inductionHypothesis
              simp [resolves, value]
              exact all
          | error unresolved =>
              simp only [later] at inductionHypothesis
              simpa [resolves] using inductionHypothesis
      | error unresolved =>
          have fails := Slot.settle_error_iff.mp ⟨unresolved, first⟩
          cases policy with
          | removeDeclaration => simp [fails]
          | dropEntry =>
              cases later : settleInterfaces site .dropEntry rest with
              | ok others =>
                  simp only [later] at inductionHypothesis
                  simp [fails, inductionHypothesis.2]
              | error other =>
                  simp only [later] at inductionHypothesis
                  exact absurd inductionHypothesis.1 (by decide)

namespace Declaration

variable {lookup : Lookup} {policy : InterfacePolicy} {handle : Handle}

/-- Settling succeeds exactly for declarations that stand, and it fills them. -/
theorem settle_result_eq_ok_iff {declaration settled : Declaration} :
    (∃ tally, (declaration.settle lookup policy handle).result = .ok (settled, tally)) ↔
      declaration.Stands lookup policy handle ∧ settled = declaration.fill lookup handle := by
  have interfaces := Slot.settleInterfaces_spec (declaration.site lookup handle) policy
    declaration.interfaces
  unfold settle Stands
  dsimp only
  cases kind : declaration.kind.settle (declaration.site lookup handle) with
  | error unresolved =>
      have fails : ¬ ∀ slot ∈ declaration.superclass?,
          slot.Resolves lookup [(declaration.site lookup handle).scope] := by
        intro resolves
        rw [settle_kind_eq_ok_iff.mpr ⟨resolves, rfl⟩] at kind
        cases kind
      constructor
      · intro settled
        obtain ⟨tally, impossible⟩ := settled
        cases impossible
      · intro settled
        obtain ⟨⟨superclass, -⟩, -⟩ := settled
        exact absurd superclass fails
  | ok settledKind =>
      obtain ⟨superclass, rfl⟩ := settle_kind_eq_ok_iff.mp kind
      cases entries : Slot.settleInterfaces (declaration.site lookup handle) policy
          declaration.interfaces with
      | error unresolved =>
          simp only [entries] at interfaces
          constructor
          · intro settled
            obtain ⟨tally, impossible⟩ := settled
            cases impossible
          · intro settled
            obtain ⟨⟨-, strict⟩, -⟩ := settled
            exact absurd (strict interfaces.1) interfaces.2
      | ok settledInterfaces =>
          simp only [entries] at interfaces
          obtain ⟨strict, value⟩ := interfaces
          have same : ∀ members : List Member,
              (Member.settleRounds (declaration.site lookup handle)
                declaration.kind.settledMembers members).value = _ :=
            Member.settleRounds_value declaration.kind.nodup_settledMembers
          have bounds : (declaration.settleBounds (declaration.site lookup handle)).value =
              declaration.typeParameters.map fun parameter =>
                parameter.fill lookup [(declaration.site lookup handle).scope] := by
            simp only [settleBounds, TypeParameter.settleAll, TypeParameter.settle_eq_fill]
            rfl
          rw [and_iff_right ⟨superclass, strict⟩]
          simp only [Except.ok.injEq, Prod.mk.injEq, exists_and_left, exists_eq', and_true, value,
            same, bounds]
          exact eq_comm

end Declaration

end TypeGraph
