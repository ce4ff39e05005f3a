import Mathlib.Data.List.Nodup
import Mathlib.Data.List.Perm.Basic
import TypeGraph.Catalog.Basic
import TypeGraph.Proofs.Catalog.Package

/-!
This file states the representation invariant of catalogs. Packages and arena agree: every entry
leads to the live declaration that it names, and every live declaration has exactly one entry.
-/

namespace TypeGraph

/-- The entries of an indexed package lead to live declarations of their name and package. -/
structure Package.IndexedIn (package : Package) (catalog : Catalog) : Prop where
  distinct : (package.entries.map Prod.fst).Nodup
  ascending : package.handles.Pairwise fun first second => first.index < second.index
  leads : ∀ entry ∈ package.entries, ∃ declaration,
    catalog.declaration? entry.2 = some declaration ∧
      declaration.name = entry.1 ∧ declaration.package = package.name

/-- The packages of the program come before those of the registry. -/
def Catalog.allPackages (catalog : Catalog) : List Package :=
  catalog.packages ++ catalog.registry

/-- An indexed catalog lists every live declaration once and nothing else. -/
structure Catalog.Indexed (catalog : Catalog) : Prop where
  packageNames : (catalog.packages.map Package.name).Nodup
  registryNames : (catalog.registry.map Package.name).Nodup
  indexed : ∀ package ∈ catalog.allPackages, package.IndexedIn catalog
  once : (catalog.allPackages.flatMap Package.handles).Nodup
  complete : ∀ handle, catalog.isLive handle = true →
    handle ∈ catalog.allPackages.flatMap Package.handles

namespace Package.IndexedIn

variable {package : Package} {catalog other : Catalog}

/-- Every listed handle is live. -/
theorem live (indexed : package.IndexedIn catalog) {handle : Handle}
    (listed : handle ∈ package.handles) : catalog.isLive handle = true := by
  obtain ⟨simple, entry⟩ := mem_handles_iff.mp listed
  obtain ⟨declaration, found, -⟩ := indexed.leads _ entry
  simp [Catalog.isLive, found]

/-- A part of a package is indexed wherever its declarations keep their names. -/
theorem keep (indexed : package.IndexedIn catalog) (keeps : Handle → Bool)
    (same : ∀ handle declaration, keeps handle = true →
      catalog.declaration? handle = some declaration → ∃ later,
        other.declaration? handle = some later ∧ later.name = declaration.name ∧
          later.package = declaration.package) :
    (package.keep keeps).IndexedIn other where
  distinct := indexed.distinct.sublist (List.filter_sublist.map Prod.fst)
  ascending := by
    rw [handles_keep]
    exact indexed.ascending.sublist List.filter_sublist
  leads := by
    intro entry listed
    obtain ⟨before, kept⟩ := List.mem_filter.mp listed
    obtain ⟨declaration, found, sameName, samePackage⟩ := indexed.leads entry before
    obtain ⟨later, foundLater, laterName, laterPackage⟩ := same _ _ kept found
    exact ⟨later, foundLater, laterName.trans sameName, laterPackage.trans samePackage⟩

/-- A package stays indexed wherever its declarations keep their names. -/
theorem mono (indexed : package.IndexedIn catalog)
    (same : ∀ handle declaration, catalog.declaration? handle = some declaration → ∃ later,
      other.declaration? handle = some later ∧ later.name = declaration.name ∧
        later.package = declaration.package) :
    package.IndexedIn other := by
  have kept := indexed.keep (fun _ => true) fun handle declaration _ => same handle declaration
  rwa [keep_eq_self fun _ _ => rfl] at kept

theorem empty (name : String) (catalog : Catalog) : (Package.empty name).IndexedIn catalog :=
  ⟨List.nodup_nil, List.Pairwise.nil, by intro entry listed; cases listed⟩

/-- A new name may lead to a handle above all others. -/
theorem insert (indexed : package.IndexedIn catalog) (declaration : Declaration)
    {handle : Handle} (absent : package.get? declaration.name = none)
    (above : ∀ earlier ∈ package.handles, earlier.index < handle.index)
    (found : catalog.declaration? handle = some declaration)
    (samePackage : declaration.package = package.name) :
    (package.insert declaration.name handle).IndexedIn catalog where
  distinct := by
    have fresh := get?_eq_none_iff.mp absent
    simpa [Package.insert] using indexed.distinct.concat fresh
  ascending := by
    rw [handles_insert]
    exact List.pairwise_append.mpr ⟨indexed.ascending, List.pairwise_singleton _ _, by
      intro earlier listed later only
      rw [List.mem_singleton.mp only]
      exact above earlier listed⟩
  leads := by
    intro entry listed
    rcases List.mem_append.mp listed with before | only
    · exact indexed.leads entry before
    · rw [List.mem_singleton.mp only]
      exact ⟨declaration, found, rfl, samePackage⟩

end Package.IndexedIn

namespace Catalog

variable {catalog : Catalog}

/-- The handles of an indexed catalog lead to declarations and are in the arena. -/
theorem Indexed.index_lt (indexed : catalog.Indexed) {handle : Handle}
    (listed : handle ∈ catalog.allPackages.flatMap Package.handles) :
    handle.index < catalog.nextHandle.index := by
  obtain ⟨package, member, inside⟩ := List.mem_flatMap.mp listed
  have live := (indexed.indexed package member).live inside
  obtain ⟨declaration, found⟩ := Option.isSome_iff_exists.mp live
  exact (Array.getElem?_eq_some_iff.mp (declaration?_eq_some_iff.mp found)).1

/-- What is found by name is found in one of the packages. -/
theorem exists_package_of_lookup? {name : String} {handle : Handle}
    (found : catalog.lookup? name = some handle) :
    ∃ package ∈ catalog.allPackages, package.lookup? name = some handle := by
  rcases Option.or_eq_some_iff.mp found with first | ⟨-, second⟩
  · obtain ⟨package, member, leads⟩ := List.exists_of_findSome?_eq_some first
    exact ⟨package, List.mem_append_left _ member, leads⟩
  · obtain ⟨package, member, leads⟩ := List.exists_of_findSome?_eq_some second
    exact ⟨package, List.mem_append_right _ member, leads⟩

/-- A name of an indexed catalog leads to a live declaration of that name. -/
theorem Indexed.qualifiedName?_of_lookup? (indexed : catalog.Indexed) {name : String}
    {handle : Handle} (found : catalog.lookup? name = some handle) :
    catalog.qualifiedName? handle = some name := by
  obtain ⟨package, member, leads⟩ := exists_package_of_lookup? found
  obtain ⟨simple, spelled, entry⟩ := Package.lookup?_eq_some_iff.mp leads
  obtain ⟨declaration, isDeclaration, sameName, samePackage⟩ :=
    (indexed.indexed package member).leads _ (Package.mem_entries_of_get? entry)
  rw [qualifiedName?, isDeclaration, Option.map_some, Declaration.qualifiedName, sameName,
    samePackage, spelled]

theorem Indexed.isLive_of_mem_handles (indexed : catalog.Indexed) {handle : Handle}
    (listed : handle ∈ catalog.handles) : catalog.isLive handle = true := by
  obtain ⟨package, member, inside⟩ := List.mem_flatMap.mp listed
  exact (indexed.indexed package (List.mem_append_left _ member)).live inside

theorem empty_indexed : Catalog.empty.Indexed where
  packageNames := List.nodup_nil
  registryNames := List.nodup_nil
  indexed := by intro package member; cases member
  once := List.nodup_nil
  complete := by
    intro handle live
    simp [isLive, declaration?, empty] at live

/-- An added package is empty. -/
theorem Indexed.addPackage (indexed : catalog.Indexed) {name : String} {larger : Catalog}
    (added : catalog.addPackage name = .ok larger) : larger.Indexed := by
  unfold Catalog.addPackage at added
  split at added
  next => cases added
  next absent =>
    cases added
    have sameHandles :
        (allPackages { catalog with packages := catalog.packages ++ [.empty name] }).flatMap
          Package.handles = catalog.allPackages.flatMap Package.handles := by
      simp [allPackages]
    refine ⟨?_, indexed.registryNames, ?_, ?_, ?_⟩
    · have fresh : name ∉ catalog.packages.map Package.name := by
        intro listed
        obtain ⟨package, member, same⟩ := List.mem_map.mp listed
        have different := List.find?_eq_none.mp absent package member
        exact different (by simpa using same)
      simpa using indexed.packageNames.concat fresh
    · intro package member
      simp only [allPackages, List.append_assoc, List.singleton_append, List.mem_append,
        List.mem_cons] at member
      rcases member with old | rfl | old
      · exact (indexed.indexed package (List.mem_append_left _ old)).mono
          fun handle declaration found => ⟨declaration, found, rfl, rfl⟩
      · exact .empty name _
      · exact (indexed.indexed package (List.mem_append_right _ old)).mono
          fun handle declaration found => ⟨declaration, found, rfl, rfl⟩
    · rw [sameHandles]
      exact indexed.once
    · intro handle live
      rw [sameHandles]
      exact indexed.complete handle live

end Catalog

end TypeGraph
