import TypeGraph.Proofs.Catalog.Reachable
import TypeGraph.Proofs.Resolution.Support

/-!
This file follows a run on its way down. Each step takes a declaration of the packages away or
fills one in, no step takes one away from a set that supports itself, and what a declaration has
become never hides what its original was.
-/

namespace TypeGraph

/-- A declaration on its way down is the original or the original as some earlier visit left it,
when more names were found. -/
def Declaration.DescendsFrom (original : Declaration) (lookup : Lookup) (policy : InterfacePolicy)
    (handle : Handle) (declaration : Declaration) : Prop :=
  declaration = original ∨
    ∃ larger : Lookup, lookup.Within larger ∧ original.Stands larger policy handle ∧
      declaration = original.fill larger handle

namespace Declaration.DescendsFrom

variable {original declaration : Declaration} {lookup smaller : Lookup} {policy : InterfacePolicy}
  {handle : Handle}

/-- A declaration that descends through a lookup descends through every smaller one. -/
theorem mono (within : smaller.Within lookup)
    (descends : original.DescendsFrom lookup policy handle declaration) :
    original.DescendsFrom smaller policy handle declaration := by
  rcases descends with same | ⟨larger, upper, stood, same⟩
  · exact .inl same
  · exact .inr ⟨larger, within.trans upper, stood, same⟩

/-- It stands exactly when its original stands. -/
theorem stands_iff (descends : original.DescendsFrom lookup policy handle declaration) :
    declaration.Stands lookup policy handle ↔ original.Stands lookup policy handle := by
  rcases descends with rfl | ⟨larger, -, stood, rfl⟩
  · exact Iff.rfl
  · exact stands_fill_iff stood

/-- It is filled exactly as its original would be. -/
theorem fill_eq (descends : original.DescendsFrom lookup policy handle declaration) :
    declaration.fill lookup handle = original.fill lookup handle := by
  rcases descends with rfl | ⟨larger, within, -, rfl⟩
  · rfl
  · exact fill_fill within original

/-- A declaration that stands still descends from its original when it is filled. -/
theorem fill (descends : original.DescendsFrom lookup policy handle declaration)
    (stands : declaration.Stands lookup policy handle) :
    original.DescendsFrom lookup policy handle (declaration.fill lookup handle) :=
  .inr ⟨lookup, .refl lookup, descends.stands_iff.mp stands, descends.fill_eq⟩

end Declaration.DescendsFrom

namespace Catalog

variable {catalog start current : Catalog} {policy : InterfacePolicy} {options : Options}

/-- A run on its way down lost declarations of the packages only, and none of a supported set. -/
structure Descends (start : Catalog) (policy : InterfacePolicy) (current : Catalog) : Prop where
  indexed : current.Indexed
  packages : current.packages = start.packages.map (Package.keep current.isLive)
  registry : current.registry = start.registry
  places : ∀ handle ∈ start.handles, ∀ declaration,
    current.declaration? handle = some declaration → ∃ original,
      start.declaration? handle = some original ∧
        original.DescendsFrom current.lookup? policy handle declaration
  supported : ∀ kept, kept ⊆ start.liveHandles → start.Supports policy kept →
    ∀ handle ∈ kept, current.isLive handle = true

/-- Every catalog descends from itself. -/
theorem Descends.refl (indexed : start.Indexed) (policy : InterfacePolicy) :
    Descends start policy start where
  indexed := indexed
  packages := by
    have same : ∀ package ∈ start.packages, package.keep start.isLive = package :=
      fun package member => Package.keep_eq_self fun handle listed =>
        (indexed.indexed package (List.mem_append_left _ member)).live listed
    exact ((List.map_congr_left same).trans (List.map_id _)).symm
  registry := rfl
  places := fun handle _ declaration found => ⟨declaration, found, .inl rfl⟩
  supported := fun kept subset _ handle member => (mem_liveHandles_iff.mp (subset member)).2

/-- What is found on the way down is what the live declarations offer. -/
theorem Descends.lookup?_eq (descends : Descends start policy current) :
    current.lookup? = start.lookupWithin current.isLive := by
  funext qualified
  rw [lookup?, lookupWithin, descends.packages, descends.registry]

/-- The handles that are left are the live ones in their old order. -/
theorem Descends.handles_eq (descends : Descends start policy current) :
    current.handles = start.handles.filter current.isLive := by
  rw [handles, handles, descends.packages, flatMap_handles_keep]

/-- Registered declarations are never visited. -/
theorem Indexed.not_mem_registry (indexed : catalog.Indexed) {handle : Handle}
    (listed : handle ∈ catalog.handles) :
    ∀ package ∈ catalog.registry, handle ∉ package.handles := by
  intro package member inside
  have once := indexed.once
  rw [allPackages, List.flatMap_append] at once
  exact (List.nodup_append.mp once).2.2 handle listed handle
    (List.mem_flatMap_of_mem member inside) rfl

/-- A catalog still descends when one of its declarations that stands is filled. -/
theorem Descends.filled (descends : Descends start policy current) {handle : Handle}
    {declaration : Declaration} (found : current.declaration? handle = some declaration)
    (stands : declaration.Stands current.lookup? policy handle) :
    Descends start policy (current.filled handle declaration) where
  indexed := descends.indexed.filled found
  packages := by
    rw [packages_filled, isLive_filled found]
    exact descends.packages
  registry := (registry_filled _ _ _).trans descends.registry
  places := by
    intro other listed later place
    rw [lookup?_filled]
    rw [declaration?_filled found] at place
    split at place
    next same =>
      subst same
      cases place
      obtain ⟨original, isOriginal, descent⟩ := descends.places other listed declaration found
      exact ⟨original, isOriginal, descent.fill stands⟩
    next => exact descends.places other listed later place
  supported := by
    rw [isLive_filled found]
    exact descends.supported

/-- A catalog still descends when a declaration that falls is removed. -/
theorem Descends.removed (indexed : start.Indexed) (descends : Descends start policy current)
    {handle : Handle} (listed : handle ∈ start.handles) {declaration : Declaration}
    (found : current.declaration? handle = some declaration)
    (falls : ¬ declaration.Stands current.lookup? policy handle) :
    Descends start policy (current.remove handle) := by
  obtain ⟨packages, registry⟩ := descends.indexed.remove_eq handle
  have live : (current.remove handle).isLive = fun other =>
      current.isLive other && decide (other ≠ handle) := by
    funext other
    exact isLive_remove current handle other
  have samePackages : (current.remove handle).packages =
      start.packages.map (Package.keep (current.remove handle).isLive) := by
    rw [packages, descends.packages, List.map_map, live]
    apply List.map_congr_left
    intro package _
    exact Package.keep_keep _ _ package
  have sameRegistry : (current.remove handle).registry = start.registry := by
    have untouched : ∀ package ∈ start.registry,
        package.keep (fun other => other ≠ handle) = package := by
      intro package member
      apply Package.keep_eq_self
      intro other inside
      apply decide_eq_true
      intro same
      subst same
      exact indexed.not_mem_registry listed package member inside
    rw [registry, descends.registry]
    exact (List.map_congr_left untouched).trans (List.map_id _)
  have lookup : (current.remove handle).lookup? =
      start.lookupWithin (current.remove handle).isLive := by
    funext qualified
    rw [lookup?, lookupWithin, samePackages, sameRegistry]
  have within : Lookup.Within (current.remove handle).lookup? current.lookup? := by
    rw [lookup, descends.lookup?_eq]
    apply lookupWithin_mono indexed
    intro other _ stays
    rw [isLive_remove, Bool.and_eq_true] at stays
    exact stays.1
  refine ⟨descends.indexed.remove handle, samePackages, sameRegistry, ?_, ?_⟩
  · intro other inside later place
    rw [declaration?_remove] at place
    split at place
    next => cases place
    next =>
      obtain ⟨original, isOriginal, descent⟩ := descends.places other inside later place
      exact ⟨original, isOriginal, descent.mono within⟩
  · intro kept subset supports other member
    have stays := descends.supported kept subset supports
    rw [isLive_remove, stays other member, Bool.true_and]
    apply decide_eq_true
    intro same
    subst same
    -- A member of a supported set stands with the set in sight, so it stands with more in sight.
    obtain ⟨original, isOriginal, descent⟩ := descends.places other listed declaration found
    apply falls
    rw [descent.stands_iff, descends.lookup?_eq]
    apply (supports other member original isOriginal).mono
    apply lookupWithin_mono indexed
    intro inside _ among
    exact stays inside (of_decide_eq_true among)

/-- A step of a run goes further down. -/
theorem Descends.step (indexed : start.Indexed) (descends : Descends start policy current)
    {handle : Handle} (listed : handle ∈ start.handles) :
    Descends start policy (current.step policy handle).catalog := by
  have steps := step_steps current policy handle
  generalize (current.step policy handle).catalog = later at steps ⊢
  generalize (current.step policy handle).removed = removed at steps
  cases steps with
  | absent => exact descends
  | filled declaration found stands => exact descends.filled found stands
  | removed declaration found falls => exact descends.removed indexed listed found falls

/-- A pass leads from one descendant to another, by induction over its steps. -/
theorem Descends.pass (indexed : start.Indexed) (descends : Descends start policy current) :
    Descends start policy (current.pass policy).catalog := by
  apply sweep_invariant ?_ descends
  intro handle visited later middle
  apply middle.step indexed
  have inside := (mem_visitOrder_iff.mp visited).1
  rw [descends.handles_eq] at inside
  exact (List.mem_filter.mp inside).1

end Catalog

end TypeGraph
