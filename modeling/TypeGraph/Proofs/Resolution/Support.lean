import Mathlib.Data.Finset.Dedup
import TypeGraph.Proofs.Resolution.Passes
import TypeGraph.Proofs.Catalog.Index

/-!
This file defines lookups that are restricted to a set of declarations, and the sets that support
themselves: each of their declarations stands with only the set and the registry in sight.
-/

namespace TypeGraph

namespace Catalog

variable {catalog start current : Catalog} {policy : InterfacePolicy} {options : Options}

/-- A restricted lookup finds the kept declarations of the packages and the whole registry. -/
def lookupWithin (catalog : Catalog) (keeps : Handle → Bool) : Lookup := fun qualified =>
  ((catalog.packages.map (Package.keep keeps)).findSome? fun package =>
      package.lookup? qualified).or
    (catalog.registry.findSome? fun package => package.lookup? qualified)

/-- The handles of the live declarations of the packages. -/
def liveHandles (catalog : Catalog) : Finset Handle :=
  (catalog.declarations.map Prod.fst).toFinset

/-- A set supports itself when each of its declarations stands with only the set in sight. -/
def Supports (catalog : Catalog) (policy : InterfacePolicy) (kept : Finset Handle) : Prop :=
  ∀ handle ∈ kept, ∀ declaration, catalog.declaration? handle = some declaration →
    declaration.Stands (catalog.lookupWithin fun other => other ∈ kept) policy handle

theorem mem_liveHandles_iff {handle : Handle} :
    handle ∈ catalog.liveHandles ↔ handle ∈ catalog.handles ∧ catalog.isLive handle = true := by
  simp only [liveHandles, List.mem_toFinset, List.mem_map, Prod.exists, exists_and_right,
    exists_eq_right, mem_declarations_iff, exists_and_left, isLive, Option.isSome_iff_exists]

theorem mem_liveHandles_iff_exists {handle : Handle} :
    handle ∈ catalog.liveHandles ↔ ∃ declaration, (handle, declaration) ∈ catalog.declarations := by
  simp [liveHandles]

theorem isSome_lookupWithin_iff (indexed : catalog.Indexed) {keeps : Handle → Bool}
    {qualified : String} :
    (catalog.lookupWithin keeps qualified).isSome = true ↔
      (∃ package ∈ catalog.packages, ∃ handle, package.lookup? qualified = some handle ∧
        keeps handle = true) ∨
      ∃ package ∈ catalog.registry, (package.lookup? qualified).isSome = true := by
  have each : ∀ package ∈ catalog.packages,
      ((package.keep keeps).lookup? qualified).isSome = true ↔
        ∃ handle, package.lookup? qualified = some handle ∧ keeps handle = true := by
    intro package member
    have distinct := (indexed.indexed package (List.mem_append_left _ member)).distinct
    rw [Package.lookup?_keep distinct, Option.isSome_iff_exists]
    simp only [Option.filter_eq_some_iff]
  simp only [lookupWithin, Option.isSome_or, Bool.or_eq_true, List.findSome?_isSome_iff,
    List.mem_map, exists_exists_and_eq_and]
  apply or_congr_left
  apply exists_congr
  intro package
  exact and_congr_right fun member => each package member

/-- A restricted lookup that keeps more declarations finds more names. -/
theorem lookupWithin_mono (indexed : catalog.Indexed) {fewer more : Handle → Bool}
    (implies : ∀ handle ∈ catalog.handles, fewer handle = true → more handle = true) :
    (catalog.lookupWithin fewer).Within (catalog.lookupWithin more) := by
  intro qualified found
  rw [isSome_lookupWithin_iff indexed] at found ⊢
  rcases found with ⟨package, member, handle, leads, kept⟩ | registered
  · refine .inl ⟨package, member, handle, leads, implies handle ?_ kept⟩
    obtain ⟨simple, -, entry⟩ := Package.lookup?_eq_some_iff.mp leads
    have listed := Package.mem_handles_iff.mpr ⟨simple, Package.mem_entries_of_get? entry⟩
    exact List.mem_flatMap_of_mem member listed
  · exact .inr registered

/-- Only what is kept of the listed handles counts for a restricted lookup. -/
theorem lookupWithin_congr {first second : Handle → Bool}
    (same : ∀ handle ∈ catalog.handles, first handle = second handle) :
    catalog.lookupWithin first = catalog.lookupWithin second := by
  have packages : catalog.packages.map (Package.keep first) =
      catalog.packages.map (Package.keep second) := by
    apply List.map_congr_left
    intro package member
    unfold Package.keep
    congr 1
    apply List.filter_congr
    intro entry listed
    apply same
    exact List.mem_flatMap_of_mem member (List.mem_map_of_mem listed)
  funext qualified
  rw [lookupWithin, lookupWithin, packages]

end Catalog

end TypeGraph
