import TypeGraph.Resolution.Member

/-!
This file says what settling a slot amounts to. A slot that resolves is filled with its reference,
and a bound that does not is marked.
-/

namespace TypeGraph

section Slots

variable (lookup : Lookup) (scopes : List Scope)

/-- A slot resolves when its text has a reference. -/
def Slot.Resolves (slot : Slot) : Prop :=
  ∃ reference, resolveText lookup scopes slot.text = .ok reference

instance (slot : Slot) : Decidable (slot.Resolves lookup scopes) :=
  match found : resolveText lookup scopes slot.text with
  | .ok reference => isTrue ⟨reference, found⟩
  | .error _ => isFalse fun ⟨_, resolved⟩ => by rw [found] at resolved; cases resolved

/-- A filled slot holds the reference of its text, if there is one. -/
def Slot.fill (slot : Slot) : Slot :=
  ⟨slot.text, (resolveText lookup scopes slot.text).toOption⟩

/-- A filled bound is marked when it has no reference; an earlier mark is final. -/
def Bound.fill (bound : Bound) : Bound :=
  if bound.unresolvable then bound
  else ⟨bound.slot.fill lookup scopes, decide (¬ bound.slot.Resolves lookup scopes)⟩

/-- A filled type parameter has filled bounds. -/
def TypeParameter.fill (parameter : TypeParameter) : TypeParameter :=
  { parameter with bounds := parameter.bounds.map fun bound => bound.fill lookup scopes }

/-- A filled formal parameter has a filled slot. -/
def FormalParameter.fill (parameter : FormalParameter) : FormalParameter :=
  { parameter with slot := parameter.slot.fill lookup scopes }

variable {lookup scopes}

/-- A slot is settled when its text resolves, and then it is filled. -/
theorem Slot.settle_eq_ok_iff {slot settled : Slot} :
    slot.settle lookup scopes = .ok settled ↔
      slot.Resolves lookup scopes ∧ settled = slot.fill lookup scopes := by
  unfold Slot.settle Slot.Resolves Slot.fill
  cases found : resolveText lookup scopes slot.text with
  | error unresolved => simp
  | ok reference => simp [Except.toOption, eq_comm]

/-- A slot fails to settle exactly when its text does not resolve. -/
theorem Slot.settle_error_iff {slot : Slot} :
    (∃ unresolved, slot.settle lookup scopes = .error unresolved) ↔
      ¬ slot.Resolves lookup scopes := by
  unfold Slot.settle Slot.Resolves
  cases found : resolveText lookup scopes slot.text <;> simp

/-- Settling a bound fills it. -/
theorem Bound.settle_eq_fill (bound : Bound) :
    bound.settle lookup scopes = bound.fill lookup scopes := by
  unfold Bound.settle Bound.fill
  by_cases marked : bound.unresolvable
  · simp [marked]
  · simp only [marked, Bool.false_eq_true, if_false]
    cases result : bound.slot.settle lookup scopes with
    | ok settled =>
        obtain ⟨resolves, rfl⟩ := Slot.settle_eq_ok_iff.mp result
        simp [resolves]
    | error unresolved =>
        have fails := Slot.settle_error_iff.mp ⟨unresolved, result⟩
        have absent : (resolveText lookup scopes bound.slot.text).toOption = none := by
          cases found : resolveText lookup scopes bound.slot.text with
          | ok reference => exact absurd ⟨reference, found⟩ fails
          | error => rfl
        simp [fails, Slot.fill, absent]

/-- Settling a type parameter never fails; it fills each bound or marks it. -/
theorem TypeParameter.settle_eq_fill (parameter : TypeParameter) :
    parameter.settle lookup scopes = parameter.fill lookup scopes := by
  simp [TypeParameter.settle, TypeParameter.fill, Bound.settle_eq_fill]

@[simp] theorem TypeParameter.name_fill (parameter : TypeParameter) :
    (parameter.fill lookup scopes).name = parameter.name := rfl

/-- Formal parameters are settled together or not at all. -/
theorem FormalParameter.settleAll_eq_ok_iff {parameters settled : List FormalParameter} :
    settleAll lookup scopes parameters = .ok settled ↔
      (∀ parameter ∈ parameters, parameter.slot.Resolves lookup scopes) ∧
        settled = parameters.map fun parameter => parameter.fill lookup scopes := by
  induction parameters generalizing settled with
  | nil => simp [settleAll, eq_comm]
  | cons parameter rest inductionHypothesis =>
      unfold settleAll
      cases first : parameter.slot.settle lookup scopes with
      | error unresolved =>
          have fails := Slot.settle_error_iff.mp ⟨unresolved, first⟩
          simp [fails]
      | ok slot =>
          obtain ⟨resolves, rfl⟩ := Slot.settle_eq_ok_iff.mp first
          cases others : settleAll lookup scopes rest with
          | error unresolved =>
              have fails : ¬ ∀ parameter ∈ rest, parameter.slot.Resolves lookup scopes := by
                intro all
                rw [inductionHypothesis.mpr ⟨all, rfl⟩] at others
                cases others
              simp only [reduceCtorEq, List.mem_cons, false_iff, not_and]
              intro all
              exact absurd (fun other member => all other (.inr member)) fails
          | ok later =>
              obtain ⟨all, rfl⟩ := inductionHypothesis.mp others
              simp only [Except.ok.injEq, List.forall_mem_cons, resolves, true_and, List.map_cons,
                FormalParameter.fill]
              exact ⟨fun equal => ⟨all, equal.symm⟩, fun equal => equal.2.symm⟩

theorem FormalParameter.not_all_resolve {parameters : List FormalParameter}
    {unresolved : Unresolved} (failed : settleAll lookup scopes parameters = .error unresolved) :
    ¬ ∀ parameter ∈ parameters, parameter.slot.Resolves lookup scopes := by
  intro all
  rw [settleAll_eq_ok_iff.mpr ⟨all, rfl⟩] at failed
  cases failed

end Slots

end TypeGraph
