import TypeGraph.Proofs.Resolution.Incident
import TypeGraph.Proofs.Resolution.Stages

/-!
This file explains passes by incidents. Every fall is one removal among the incidents, and every
bound that fails anywhere in a run was open at its start.
-/

namespace TypeGraph

namespace Moment

/-- The failures of a moment are those of the own bounds of the declaration that is visited. -/
def failures (moment : Moment) : List FailedBound :=
  ((moment.catalog.declaration? moment.handle).map fun declaration =>
    declaration.failures moment.catalog.lookup? moment.handle).getD []

/-- The loss of a moment is the declaration that is visited, if it falls. -/
def loss (moment : Moment) : Loss :=
  ⟨moment.name, moment.failures⟩

end Moment

/-- What happens at one listed handle decides what happens to several. -/
theorem count_flatMap_le {handles : List Handle} {handle : Handle} (listed : handle ∈ handles)
    {before after : Handle → List BoundPlace}
    (same : ∀ other, other ≠ handle → after other = before other) {place : BoundPlace}
    {failed : Nat} (now : failed + (after handle).count place ≤ (before handle).count place) :
    failed + (handles.flatMap after).count place ≤ (handles.flatMap before).count place := by
  have fewer : ∀ others : List Handle,
      (others.flatMap after).count place ≤ (others.flatMap before).count place := by
    intro others
    induction others with
    | nil => exact Nat.le_refl _
    | cons first rest inductionHypothesis =>
        simp only [List.flatMap_cons, List.count_append]
        by_cases here : first = handle
        · subst here
          omega
        · rw [same first here]
          omega
  induction handles with
  | nil => cases listed
  | cons first rest inductionHypothesis =>
      simp only [List.flatMap_cons, List.count_append]
      by_cases here : first = handle
      · subst here
        have others := fewer rest
        omega
      · have inRest := (List.mem_cons.mp listed).resolve_left (Ne.symm here)
        have others := inductionHypothesis inRest
        rw [same first here]
        omega

namespace Catalog

variable {catalog : Catalog} {policy : InterfacePolicy} {handle : Handle}

/-- The open bounds at a handle are those of the declaration there. -/
def openBoundsAt (catalog : Catalog) (handle : Handle) : List BoundPlace :=
  ((catalog.declaration? handle).map Declaration.openBounds).getD []

/-- The open bounds at several handles. -/
def openBoundsOf (catalog : Catalog) (handles : List Handle) : List BoundPlace :=
  handles.flatMap catalog.openBoundsAt

/-- An explanation of one declaration explains a catalog in which nothing else changed. -/
theorem explains_of_explains_at {later : Catalog} {incidents : List Incident}
    {events : List Event} {tally : Tally} {losses : List Loss} {handles : List Handle}
    (listed : handle ∈ handles)
    (same : ∀ other, other ≠ handle → later.declaration? other = catalog.declaration? other)
    (explained : Explains incidents events tally losses (catalog.openBoundsAt handle)
      (later.openBoundsAt handle)) :
    Explains incidents events tally losses (catalog.openBoundsOf handles)
      (later.openBoundsOf handles) where
  events := explained.events
  tally := explained.tally
  losses := explained.losses
  conserved := by
    intro place
    apply count_flatMap_le listed _ (explained.conserved place)
    intro other different
    rw [openBoundsAt, openBoundsAt, same other different]

/-- A declaration that is removed is explained by its fall. -/
theorem removal_explained {declaration : Declaration} {cause : Failure}
    (found : catalog.declaration? handle = some declaration)
    (result : (declaration.settle catalog.lookup? policy handle).result = .error cause) :
    ∃ incidents, Explains incidents (catalog.step policy handle).events .zero
      [Moment.loss ⟨catalog, handle⟩] declaration.openBounds [] := by
  obtain ⟨entry, rfl, events⟩ := Declaration.exists_entry_of_settle result
  have loss : Moment.loss ⟨catalog, handle⟩ =
      ⟨declaration.qualifiedName, declaration.failures catalog.lookup? handle⟩ := by
    simp [Moment.loss, Moment.name, Moment.failures, qualifiedName?, found]
  refine ⟨[.declarationRemoved (Moment.loss ⟨catalog, handle⟩) entry], ?_, rfl, rfl, ?_⟩
  · rw [step_of_error found result, events, loss]
    simp [Incident.events]
  · -- nothing of the declaration is left, so only its own bounds can have failed at its fall
    intro place
    have bounds := (TypeParameter.settleAll_explained catalog.lookup?
      [(declaration.site catalog.lookup? handle).scope] declaration.qualifiedName
      declaration.typeParameters).conserved place
    simp only [Incident.failedPlaces, List.flatMap_cons, List.flatMap_nil, List.append_nil,
      Incident.failures, loss, List.count_nil, Declaration.openBounds, List.count_append,
      Declaration.failures] at bounds ⊢
    omega

/-- The losses of some moments are those of the moments that fall. -/
def lossesOf (policy : InterfacePolicy) (moments : List Moment) : List Loss :=
  (moments.filter fun moment => moment.falls policy).map Moment.loss

/-- A step is explained by what it did to the declaration that it visited. -/
theorem step_explained (catalog : Catalog) (policy : InterfacePolicy) {handles : List Handle}
    (listed : handle ∈ handles) :
    ∃ incidents, Explains incidents (catalog.step policy handle).events
      (catalog.step policy handle).tally (lossesOf policy [⟨catalog, handle⟩])
      (catalog.openBoundsOf handles) ((catalog.step policy handle).catalog.openBoundsOf handles) := by
  have removed : (catalog.step policy handle).removed = _ :=
    Moment.removed_step policy ⟨catalog, handle⟩
  cases found : catalog.declaration? handle with
  | none =>
      rw [step_of_absent found] at removed ⊢
      have stands : Moment.falls policy ⟨catalog, handle⟩ = false := by simpa using removed
      simp only [lossesOf, List.filter_cons, stands]
      exact ⟨[], .refl _⟩
  | some declaration =>
      cases result : (declaration.settle catalog.lookup? policy handle).result with
      | ok value =>
          obtain ⟨settled, tally⟩ := value
          obtain ⟨incidents, explained⟩ := Declaration.settle_explained result
          rw [step_of_ok found result] at removed ⊢
          have stands : Moment.falls policy ⟨catalog, handle⟩ = false := by simpa using removed
          simp only [lossesOf, List.filter_cons, stands]
          refine ⟨incidents, explains_of_explains_at listed ?_ ?_⟩
          · intro other different
            rw [declaration?_update, if_neg different]
          · simpa [openBoundsAt, declaration?_update, found] using explained
      | error cause =>
          obtain ⟨incidents, explained⟩ := removal_explained found result
          rw [step_of_error found result] at removed explained ⊢
          have falls : Moment.falls policy ⟨catalog, handle⟩ = true := by
            by_contra stands
            simp [stands] at removed
          simp only [lossesOf, List.filter_cons, falls]
          refine ⟨incidents, explains_of_explains_at listed ?_ ?_⟩
          · intro other different
            rw [declaration?_remove, if_neg different]
          · simpa [openBoundsAt, declaration?_remove, found] using explained

theorem sweep_explained {handles order : List Handle} (listed : ∀ handle ∈ order, handle ∈ handles)
    (catalog : Catalog) :
    ∃ incidents, Explains incidents (catalog.sweep policy order).events
      (catalog.sweep policy order).tally (lossesOf policy (catalog.moments policy order))
      (catalog.openBoundsOf handles) ((catalog.sweep policy order).catalog.openBoundsOf handles) := by
  induction order generalizing catalog with
  | nil => exact ⟨[], .refl _⟩
  | cons handle rest inductionHypothesis =>
      obtain ⟨here, others⟩ := List.forall_mem_cons.mp listed
      obtain ⟨incidents, first⟩ := step_explained catalog policy here
      obtain ⟨more, later⟩ := inductionHypothesis others (catalog.step policy handle).catalog
      have whole := first.andThen later
      rw [lossesOf, lossesOf, ← List.map_append, ← List.filter_append] at whole
      exact ⟨_, whole⟩

/-- A pass is explained by its falls and by what else failed in it. -/
theorem pass_explained (catalog : Catalog) (policy : InterfacePolicy) {handles : List Handle}
    (listed : ∀ handle ∈ catalog.handles, handle ∈ handles) :
    ∃ incidents, Explains incidents (catalog.pass policy).events (catalog.pass policy).tally
      ((catalog.falls policy).map Moment.loss) (catalog.openBoundsOf handles)
      ((catalog.pass policy).catalog.openBoundsOf handles) :=
  sweep_explained (fun handle visited => listed handle (mem_visitOrder_iff.mp visited).1) catalog

/-- Every event of a pass belongs to an incident. -/
theorem exists_incident_of_mem_pass {event : Event}
    (inside : event ∈ (catalog.pass policy).events) :
    ∃ incident : Incident, event ∈ incident.events := by
  obtain ⟨incidents, explained⟩ := pass_explained catalog policy fun _ listed => listed
  rw [explained.events] at inside
  obtain ⟨incident, -, belongs⟩ := List.mem_flatMap.mp inside
  exact ⟨incident, belongs⟩

/-- Several passes are explained together. -/
theorem passes_explained (catalog : Catalog) (policy : InterfacePolicy) {handles : List Handle}
    (listed : ∀ handle ∈ catalog.handles, handle ∈ handles) (count : Nat) :
    ∃ incidents, Explains incidents (catalog.passes policy count).events
      (catalog.passes policy count).tally ((catalog.allFalls policy count).map Moment.loss)
      (catalog.openBoundsOf handles)
      ((catalog.passes policy count).catalog.openBoundsOf handles) := by
  induction count generalizing catalog with
  | zero => exact ⟨[], .refl _⟩
  | succ count inductionHypothesis =>
      obtain ⟨incidents, first⟩ := pass_explained catalog policy listed
      have stillListed : ∀ handle ∈ (catalog.pass policy).catalog.handles, handle ∈ handles :=
        fun handle inside => listed handle (mem_handles_of_pass inside)
      obtain ⟨more, later⟩ := inductionHypothesis (catalog.pass policy).catalog stillListed
      have whole := first.andThen later
      rw [← List.map_append] at whole
      exact ⟨_, whole⟩

end Catalog

end TypeGraph
