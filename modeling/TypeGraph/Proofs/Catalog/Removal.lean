import TypeGraph.Proofs.Catalog.Index

/-!
This file shows that catalogs stay indexed when live declarations are changed or removed. A removal
takes the only entry of the handle away, and it does nothing else to the packages.
-/

namespace TypeGraph.Catalog

variable {catalog : Catalog}

/-- A change that keeps name and package keeps the index. -/
theorem Indexed.update (indexed : catalog.Indexed) (handle : Handle)
    {change : Declaration → Declaration}
    (same : ∀ declaration, catalog.declaration? handle = some declaration →
      (change declaration).name = declaration.name ∧
        (change declaration).package = declaration.package) :
    (catalog.update handle change).Indexed := by
  have sameAll : (catalog.update handle change).allPackages = catalog.allPackages := by
    rw [allPackages, packages_update, registry_update, allPackages]
  refine ⟨?_, ?_, ?_, ?_, ?_⟩
  · rw [packages_update]
    exact indexed.packageNames
  · rw [registry_update]
    exact indexed.registryNames
  · rw [sameAll]
    intro package member
    apply (indexed.indexed package member).mono
    intro other declaration found
    rw [declaration?_update]
    split
    next equal =>
      rw [← equal, found]
      exact ⟨_, rfl, same declaration (equal ▸ found)⟩
    next => exact ⟨declaration, found, rfl, rfl⟩
  · rw [sameAll]
    exact indexed.once
  · rw [sameAll]
    intro other live
    apply indexed.complete
    unfold isLive at live ⊢
    rw [declaration?_update] at live
    split at live
    next equal => simpa [equal] using live
    next => exact live

/-- The entries of a live declaration are those that the packages erase with it. -/
theorem eraseEntry_eq_keep {packages : List Package} {handle : Handle} {declaration : Declaration}
    (all : ∀ package ∈ packages, package.IndexedIn catalog)
    (found : catalog.declaration? handle = some declaration) :
    eraseEntry packages declaration.package declaration.name handle =
      packages.map (Package.keep fun other => other ≠ handle) := by
  apply List.map_congr_left
  intro package member
  have leads := (all package member).leads
  split
  next sameName =>
    simp only [Package.erase, Package.keep]
    congr 1
    apply List.filter_congr
    intro entry listed
    obtain ⟨other, isOther, otherName, -⟩ := leads entry listed
    have same : entry = (declaration.name, handle) ↔ entry.2 = handle := by
      constructor
      · exact fun equal => equal ▸ rfl
      · intro equal
        rw [equal, found] at isOther
        cases isOther
        exact Prod.ext otherName.symm equal
    simp [same]
  next different =>
    symm
    apply Package.keep_eq_self
    intro other listed
    obtain ⟨simple, entry⟩ := Package.mem_handles_iff.mp listed
    obtain ⟨holder, isHolder, -, samePackage⟩ := leads _ entry
    apply decide_eq_true
    intro same
    subst same
    rw [found] at isHolder
    cases isHolder
    exact different samePackage.symm

/-- A removal takes the entries of the handle out of every package. -/
theorem Indexed.remove_eq (indexed : catalog.Indexed) (handle : Handle) :
    (catalog.remove handle).packages =
        catalog.packages.map (Package.keep fun other => other ≠ handle) ∧
      (catalog.remove handle).registry =
        catalog.registry.map (Package.keep fun other => other ≠ handle) := by
  cases found : catalog.declaration? handle with
  | some declaration =>
      simp only [Catalog.remove, found]
      exact ⟨eraseEntry_eq_keep (fun package member =>
          indexed.indexed package (List.mem_append_left _ member)) found,
        eraseEntry_eq_keep (fun package member =>
          indexed.indexed package (List.mem_append_right _ member)) found⟩
  | none =>
      have same : ∀ package ∈ catalog.allPackages,
          package.keep (fun other => other ≠ handle) = package := by
        intro package member
        apply Package.keep_eq_self
        intro other listed
        have live := (indexed.indexed package member).live listed
        apply decide_eq_true
        intro same
        subst same
        simp [isLive, found] at live
      simp only [Catalog.remove, found]
      constructor
      · exact ((List.map_congr_left fun package member =>
          same package (List.mem_append_left _ member)).trans (List.map_id _)).symm
      · exact ((List.map_congr_left fun package member =>
          same package (List.mem_append_right _ member)).trans (List.map_id _)).symm

theorem flatMap_handles_keep (keeps : Handle → Bool) (packages : List Package) :
    (packages.map (Package.keep keeps)).flatMap Package.handles =
      (packages.flatMap Package.handles).filter keeps := by
  simp only [List.flatMap_map, Package.handles_keep, List.filter_flatMap]

/-- A removal keeps the index. -/
theorem Indexed.remove (indexed : catalog.Indexed) (handle : Handle) :
    (catalog.remove handle).Indexed := by
  obtain ⟨packages, registry⟩ := indexed.remove_eq handle
  have all : (catalog.remove handle).allPackages =
      catalog.allPackages.map (Package.keep fun other => other ≠ handle) := by
    rw [allPackages, packages, registry, allPackages, List.map_append]
  refine ⟨?_, ?_, ?_, ?_, ?_⟩
  · rw [packages, List.map_map]
    exact indexed.packageNames
  · rw [registry, List.map_map]
    exact indexed.registryNames
  · rw [all]
    intro package member
    obtain ⟨earlier, before, rfl⟩ := List.mem_map.mp member
    apply (indexed.indexed earlier before).keep
    intro other declaration kept found
    refine ⟨declaration, ?_, rfl, rfl⟩
    rw [declaration?_remove, if_neg (of_decide_eq_true kept), found]
  · rw [all, flatMap_handles_keep]
    exact indexed.once.filter _
  · rw [all, flatMap_handles_keep]
    intro other live
    rw [isLive, declaration?_remove] at live
    split at live
    next => cases live
    next different =>
      exact List.mem_filter.mpr ⟨indexed.complete other live, decide_eq_true different⟩

end TypeGraph.Catalog
