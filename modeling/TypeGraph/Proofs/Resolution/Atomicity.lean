import TypeGraph.Proofs.Resolution.Specification

/-!
This file specifies a visit that fails. The first supertype that does not resolve decides, and by
then nothing has happened that outlives the visit except the warnings of the own bounds.
-/

namespace TypeGraph

/-- The interfaces that a declaration cannot live without are all of them or none. -/
def InterfacePolicy.required (policy : InterfacePolicy) (interfaces : List Slot) : List Slot :=
  match policy with
  | .removeDeclaration => interfaces
  | .dropEntry => []

namespace Declaration

/-- The supertypes that a declaration cannot live without, the superclass before the interfaces. -/
def requiredSupertypes (policy : InterfacePolicy) (declaration : Declaration) : List Slot :=
  declaration.superclass?.toList ++ policy.required declaration.interfaces

/-- A declaration fails with the first required supertype that does not resolve. -/
def failure? (lookup : Lookup) (policy : InterfacePolicy) (handle : Handle)
    (declaration : Declaration) : Option Unresolved :=
  (declaration.requiredSupertypes policy).findSome?
    (Slot.failure? lookup [(declaration.site lookup handle).scope])

/-- The own bounds of a declaration that were not marked before and do not resolve. -/
def failingBounds (lookup : Lookup) (handle : Handle) (declaration : Declaration) : List Bound :=
  (declaration.typeParameters.flatMap TypeParameter.bounds).filter fun bound =>
    bound.unresolvable = false ∧
      ¬ bound.slot.Resolves lookup [(declaration.site lookup handle).scope]

/-- A bound is warned of under the name of its declaration, with the cause of its failure. -/
def WarnsOf (lookup : Lookup) (handle : Handle) (declaration : Declaration) (bound : Bound)
    (diagnostic : Diagnostic) : Prop :=
  ∃ entry,
    bound.slot.failure? lookup [(declaration.site lookup handle).scope] = some entry ∧
      diagnostic = ⟨.warning, declaration.qualifiedName,
        (Problem.boundUnresolved declaration.qualifiedName entry).message⟩

end Declaration

section Failures

variable {lookup : Lookup} {policy : InterfacePolicy} {handle : Handle} {declaration : Declaration}
  {site : Site} {unresolved : Unresolved}

/-- A kind fails with the superclass. -/
theorem Declaration.settle_kind_eq_error_iff :
    declaration.kind.settle site = .error unresolved ↔
      declaration.superclass?.toList.findSome? (Slot.failure? site.lookup [site.scope]) =
        some unresolved := by
  unfold superclass?
  cases declaration.kind with
  | ofInterface => simp [DeclarationKind.settle]
  | ofClass superclass =>
      cases superclass with
      | none => simp [DeclarationKind.settle]
      | some slot =>
          simp only [DeclarationKind.settle]
          cases result : slot.settle site.lookup [site.scope] with
          | error failure => simp [Slot.settle_eq_error_iff.mp result]
          | ok filled =>
              simp [Slot.failure?_eq_none_iff.mpr (Slot.settle_eq_ok_iff.mp result).1]

/-- The interfaces fail with the first required one that does. -/
theorem Slot.settleInterfaces_eq_error_iff {slots : List Slot} :
    settleInterfaces site policy slots = .error unresolved ↔
      (policy.required slots).findSome? (Slot.failure? site.lookup [site.scope]) =
        some unresolved := by
  induction slots with
  | nil => cases policy <;> simp [settleInterfaces, InterfacePolicy.required]
  | cons slot rest inductionHypothesis =>
      unfold settleInterfaces
      cases first : slot.settle site.lookup [site.scope] with
      | ok filled =>
          have passed := Slot.failure?_eq_none_iff.mpr (Slot.settle_eq_ok_iff.mp first).1
          have same : (policy.required (slot :: rest)).findSome?
                (Slot.failure? site.lookup [site.scope]) =
              (policy.required rest).findSome? (Slot.failure? site.lookup [site.scope]) := by
            cases policy <;> simp [InterfacePolicy.required, passed]
          rw [same, ← inductionHypothesis]
          cases settleInterfaces site policy rest <;> simp
      | error failure =>
          have failed := Slot.settle_eq_error_iff.mp first
          cases policy with
          | removeDeclaration => simp [InterfacePolicy.required, failed]
          | dropEntry =>
              -- a dropped entry decides nothing, and neither does any later one
              simp only [InterfacePolicy.required] at inductionHypothesis ⊢
              rw [← inductionHypothesis]
              cases settleInterfaces site .dropEntry rest <;> simp

namespace Declaration

/-- A declaration has a failure exactly when a required supertype does not resolve. -/
theorem failure?_isSome_iff :
    (declaration.failure? lookup policy handle).isSome = true ↔
      (∃ slot ∈ declaration.superclass?,
        ¬ slot.Resolves lookup [(declaration.site lookup handle).scope]) ∨
      policy = .removeDeclaration ∧ ∃ slot ∈ declaration.interfaces,
        ¬ slot.Resolves lookup [(declaration.site lookup handle).scope] := by
  have fails : ∀ slot : Slot,
      (slot.failure? lookup [(declaration.site lookup handle).scope]).isSome = true ↔
        ¬ slot.Resolves lookup [(declaration.site lookup handle).scope] := by
    intro slot
    rw [← Slot.failure?_eq_none_iff, Option.isSome_iff_ne_none]
  simp only [failure?, requiredSupertypes, List.findSome?_isSome_iff, fails, List.mem_append,
    Option.mem_toList, or_and_right, exists_or]
  cases policy <;> simp [InterfacePolicy.required]

/-- A declaration that has a failure stops at it, behind the reports of its own bounds. -/
theorem settle_of_failure? (failed : declaration.failure? lookup policy handle = some unresolved) :
    declaration.settle lookup policy handle =
      ⟨(declaration.settleBounds (declaration.site lookup handle)).events ++
        [.unresolved unresolved], .error unresolved.cause⟩ := by
  unfold settle
  dsimp only
  rw [failure?, requiredSupertypes, List.findSome?_append] at failed
  cases kind : declaration.kind.settle (declaration.site lookup handle) with
  | error failure =>
      have decided := settle_kind_eq_error_iff.mp kind
      rw [show (declaration.site lookup handle).lookup = lookup from rfl] at decided
      rw [decided, Option.some_or] at failed
      obtain rfl := Option.some.inj failed
      rfl
  | ok settledKind =>
      have passed : declaration.superclass?.toList.findSome?
          (Slot.failure? lookup [(declaration.site lookup handle).scope]) = none := by
        rw [List.findSome?_eq_none_iff]
        intro slot listed
        have resolves := (settle_kind_eq_ok_iff.mp kind).1 slot (Option.mem_toList.mp listed)
        exact Slot.failure?_eq_none_iff.mpr resolves
      rw [passed, Option.none_or] at failed
      have entries : Slot.settleInterfaces (declaration.site lookup handle) policy
          declaration.interfaces = .error unresolved := Slot.settleInterfaces_eq_error_iff.mpr failed
      simp only [entries]

/-- A declaration settles or has a failure. -/
theorem failure?_eq_none_iff :
    declaration.failure? lookup policy handle = none ↔
      declaration.Stands lookup policy handle := by
  rw [← Option.not_isSome_iff_eq_none, failure?_isSome_iff, Stands]
  simp only [not_or, not_and, not_exists, not_not]

/-- Every own bound that fails is warned of, in its order, and nothing else is reported. -/
theorem diagnostics_settleBounds :
    List.Forall₂ (declaration.WarnsOf lookup handle) (declaration.failingBounds lookup handle)
      (Event.diagnostics
        (declaration.settleBounds (declaration.site lookup handle)).events) := by
  have reported : Event.diagnostics
        (declaration.settleBounds (declaration.site lookup handle)).events =
      ((declaration.typeParameters.flatMap TypeParameter.bounds).filterMap fun bound =>
        bound.failure? lookup [(declaration.site lookup handle).scope]).map fun entry =>
          (Problem.boundUnresolved declaration.qualifiedName entry).diagnostic := by
    rw [Event.diagnostics, settleBounds, TypeParameter.settleAll,
      TypeParameter.problems_failureEvents, TypeParameter.failures, List.map_map,
      ← List.filterMap_flatMap]
    rfl
  rw [reported, failingBounds]
  induction declaration.typeParameters.flatMap TypeParameter.bounds with
  | nil => exact .nil
  | cons bound rest inductionHypothesis =>
      cases marked : bound.unresolvable with
      | true =>
          have skipped : bound.failure? lookup [(declaration.site lookup handle).scope] = none := by
            simp [Bound.failure?, marked]
          simpa [marked, skipped] using inductionHypothesis
      | false =>
          cases result : bound.slot.settle lookup [(declaration.site lookup handle).scope] with
          | ok filled =>
              have resolves := (Slot.settle_eq_ok_iff.mp result).1
              have passed : bound.failure? lookup [(declaration.site lookup handle).scope] =
                  none := by
                simp [Bound.failure?, marked, result]
              simpa [resolves, passed] using inductionHypothesis
          | error entry =>
              have fails := Slot.settle_error_iff.mp ⟨entry, result⟩
              have failed : bound.failure? lookup [(declaration.site lookup handle).scope] =
                  some entry := by
                simp [Bound.failure?, marked, result]
              rw [List.filter_cons_of_pos (by simp [marked, fails]),
                List.filterMap_cons_some failed, List.map_cons]
              exact .cons ⟨entry, Slot.settle_eq_error_iff.mp result, rfl⟩ inductionHypothesis

end Declaration

end Failures

namespace Catalog

variable {catalog : Catalog} {policy : InterfacePolicy} {handle : Handle}
  {declaration : Declaration}

/-- A visit of a live declaration fails exactly when its superclass does not resolve or, under the
strict policy, one of its interfaces. The cause is that of the first of them, the catalog stays as
it was, and each own bound that fails is warned of, with no other report. -/
theorem visit_failsAtomically (found : catalog.declaration? handle = some declaration) :
    ((∃ cause, (catalog.visit policy handle).result = .error cause) ↔
        (∃ slot ∈ declaration.superclass?,
          ¬ slot.Resolves catalog.lookup? [(declaration.site catalog.lookup? handle).scope]) ∨
        policy = .removeDeclaration ∧ ∃ slot ∈ declaration.interfaces,
          ¬ slot.Resolves catalog.lookup? [(declaration.site catalog.lookup? handle).scope]) ∧
      ∀ cause, (catalog.visit policy handle).result = .error cause →
        (declaration.failure? catalog.lookup? policy handle).map Unresolved.cause = some cause ∧
          (catalog.visit policy handle).catalog = catalog ∧
          List.Forall₂ (declaration.WarnsOf catalog.lookup? handle)
            (declaration.failingBounds catalog.lookup? handle)
            (Event.diagnostics (catalog.visit policy handle).events) := by
  rw [← Declaration.failure?_isSome_iff]
  simp only [visit, found]
  cases failed : declaration.failure? catalog.lookup? policy handle with
  | none =>
      obtain ⟨tally, succeeds⟩ := Declaration.settle_result_eq_ok_iff.mpr
        ⟨Declaration.failure?_eq_none_iff.mp failed, rfl⟩
      simp [succeeds]
  | some entry =>
      rw [Declaration.settle_of_failure? failed]
      refine ⟨iff_of_true ⟨entry.cause, rfl⟩ rfl, ?_⟩
      intro cause same
      obtain rfl := Except.error.inj same
      refine ⟨rfl, rfl, ?_⟩
      rw [Event.diagnostics_append]
      exact List.append_nil _ ▸ Declaration.diagnostics_settleBounds

/-- The first interface fails the class, which stays as it is and warns of one bound only. -/
theorem visit_failsAtomically_motley :
    let catalog := Catalog.empty.performAll motley
    let visit := catalog.visit .removeDeclaration ⟨1⟩
    (∃ declaration, catalog.declaration? ⟨1⟩ = some declaration ∧
        (declaration.failure? catalog.lookup? .removeDeclaration ⟨1⟩).map Unresolved.cause =
          some (.notFound "q.First") ∧
        List.Forall₂ (declaration.WarnsOf catalog.lookup? ⟨1⟩)
          (declaration.failingBounds catalog.lookup? ⟨1⟩) (Event.diagnostics visit.events)) ∧
      visit.result = .error (.notFound "q.First") ∧ visit.catalog = catalog ∧
      Event.diagnostics visit.events =
        [⟨.warning, "p.C",
          "failed to resolve generic constraint 'q.Gone': Type 'q.Gone' was not found."⟩] := by
  intro catalog visit
  have live : catalog.isLive ⟨1⟩ = true := by decide +kernel
  have fails : visit.result = .error (.notFound "q.First") := by decide +kernel
  obtain ⟨declaration, found⟩ := Option.isSome_iff_exists.mp live
  obtain ⟨cause, unchanged, warned⟩ := (visit_failsAtomically found).2 _ fails
  refine ⟨⟨declaration, found, cause, warned⟩, fails, unchanged, ?_⟩
  decide +kernel

end Catalog

end TypeGraph
