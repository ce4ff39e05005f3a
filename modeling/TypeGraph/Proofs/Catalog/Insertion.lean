import TypeGraph.Catalog.Standard
import TypeGraph.Proofs.Catalog.Index

/-!
This file shows that catalogs stay indexed when declarations are declared or registered. A new
declaration gets a handle above all others, its place in the arena and one entry.
-/

namespace TypeGraph.Catalog

variable {catalog : Catalog}

@[simp] theorem map_name_insertEntry (packages : List Package) (package simple : String)
    (handle : Handle) :
    (insertEntry packages package simple handle).map Package.name =
      packages.map Package.name := by
  simp only [insertEntry, List.map_map]
  apply List.map_congr_left
  intro candidate _
  simp only [Function.comp_apply]
  split <;> rfl

theorem insertEntry_of_not_mem {packages : List Package} {package : String}
    (absent : package ∉ packages.map Package.name) (simple : String) (handle : Handle) :
    insertEntry packages package simple handle = packages := by
  have same : ∀ candidate ∈ packages,
      (if candidate.name = package then candidate.insert simple handle else candidate) =
        candidate := by
    intro candidate member
    apply if_neg
    intro equal
    exact absent (equal ▸ List.mem_map_of_mem member)
  exact (List.map_congr_left same).trans (List.map_id _)

/-- An inserted handle is the only new one. -/
theorem perm_insertEntry {packages : List Package} {package : String}
    (distinct : (packages.map Package.name).Nodup) (known : package ∈ packages.map Package.name)
    (simple : String) (handle : Handle) :
    ((insertEntry packages package simple handle).flatMap Package.handles).Perm
      (handle :: packages.flatMap Package.handles) := by
  induction packages with
  | nil => cases known
  | cons first rest inductionHypothesis =>
      obtain ⟨apart, distinctRest⟩ := List.nodup_cons.mp distinct
      by_cases same : first.name = package
      · have unchanged := insertEntry_of_not_mem (same ▸ apart) simple handle
        have step : insertEntry (first :: rest) package simple handle =
            first.insert simple handle :: rest := by
          simp only [insertEntry, List.map_cons, same, if_true]
          exact congrArg _ unchanged
        rw [step]
        simp only [List.flatMap_cons, Package.handles_insert, List.append_assoc]
        exact List.perm_middle
      · have later : package ∈ rest.map Package.name :=
          (List.mem_cons.mp known).resolve_left (Ne.symm same)
        have step : insertEntry (first :: rest) package simple handle =
            first :: insertEntry rest package simple handle := by
          simp [insertEntry, same]
        rw [step]
        simp only [List.flatMap_cons]
        exact ((inductionHypothesis distinctRest later).append_left _).trans List.perm_middle

/-- Allotment gives the next handle to the declaration and changes no other place. -/
theorem declaration?_allot (catalog : Catalog) (packages registry : List Package)
    (package : String) (declaration : Declaration) (handle : Handle) :
    declaration? ⟨packages, registry, catalog.allot package declaration⟩ handle =
      if handle = catalog.nextHandle then some { declaration with package := package }
      else catalog.declaration? handle := by
  by_cases same : handle = catalog.nextHandle
  · subst same
    simp [declaration?, allot, nextHandle]
  · have apart : handle.index ≠ catalog.arena.size := by
      intro equal
      exact same (by cases handle; simp_all [nextHandle])
    simp only [declaration?, allot, if_neg same]
    rw [Array.getElem?_push, if_neg apart]

/-- A package stays indexed while a place is allotted to another declaration. -/
theorem Indexed.indexedIn_allot (indexed : catalog.Indexed) {package : Package}
    (member : package ∈ catalog.allPackages) (packages registry : List Package) (name : String)
    (declaration : Declaration) :
    package.IndexedIn ⟨packages, registry, catalog.allot name declaration⟩ := by
  have within := (indexed.indexed package member)
  apply within.mono
  intro handle earlier found
  refine ⟨earlier, ?_, rfl, rfl⟩
  rw [declaration?_allot, if_neg, found]
  intro same
  subst same
  have inside := (Array.getElem?_eq_some_iff.mp (declaration?_eq_some_iff.mp found)).1
  exact Nat.lt_irrefl _ inside

/-- The package of a new entry is indexed with it, and the others stay indexed. -/
theorem Indexed.indexedIn_insertEntry (indexed : catalog.Indexed) {listed : List Package}
    (known : ∀ package ∈ listed, package ∈ catalog.allPackages ∨ package.entries = [])
    (packages registry : List Package) {name : String} {declaration : Declaration}
    (absent : ∀ package ∈ listed, package.name = name → package.get? declaration.name = none) :
    ∀ package ∈ insertEntry listed name declaration.name catalog.nextHandle,
      package.IndexedIn ⟨packages, registry, catalog.allot name declaration⟩ := by
  intro package member
  obtain ⟨earlier, before, rfl⟩ := List.mem_map.mp member
  have stays : earlier.IndexedIn ⟨packages, registry, catalog.allot name declaration⟩ := by
    rcases known earlier before with old | bare
    · exact indexed.indexedIn_allot old packages registry name declaration
    · have same : earlier = .empty earlier.name := by cases earlier; simp_all [Package.empty]
      exact same ▸ .empty _ _
  split
  next sameName =>
    refine stays.insert { declaration with package := name }
      (absent earlier before sameName) ?_ ?_ sameName.symm
    · intro handle inside
      rcases known earlier before with old | bare
      · exact indexed.index_lt (List.mem_flatMap_of_mem old inside)
      · simp [Package.handles, bare] at inside
    · rw [declaration?_allot, if_pos rfl]
  next => exact stays

/-- A catalog stays indexed when a new handle gets its entry together with its place. -/
theorem Indexed.allot (indexed : catalog.Indexed) {packages registry : List Package}
    {name : String} {declaration : Declaration}
    (packageNames : (packages.map Package.name).Nodup)
    (registryNames : (registry.map Package.name).Nodup)
    (all : ∀ package ∈ packages ++ registry,
      package.IndexedIn ⟨packages, registry, catalog.allot name declaration⟩)
    (listed : ((packages ++ registry).flatMap Package.handles).Perm
      (catalog.nextHandle :: catalog.allPackages.flatMap Package.handles)) :
    Indexed ⟨packages, registry, catalog.allot name declaration⟩ where
  packageNames := packageNames
  registryNames := registryNames
  indexed := all
  once := by
    apply listed.nodup_iff.mpr
    refine List.nodup_cons.mpr ⟨?_, indexed.once⟩
    intro old
    exact Nat.lt_irrefl _ (indexed.index_lt old)
  complete := by
    intro handle live
    apply listed.mem_iff.mpr
    by_cases new : handle = catalog.nextHandle
    · exact new ▸ List.mem_cons_self
    · rw [isLive, declaration?_allot, if_neg new] at live
      exact List.mem_cons_of_mem _ (indexed.complete handle live)

/-- A declared catalog lists the new declaration in its package. -/
theorem Indexed.declare (indexed : catalog.Indexed) {package : String} {declaration : Declaration}
    {handle : Handle} {larger : Catalog}
    (added : catalog.declare package declaration = .ok (handle, larger)) : larger.Indexed := by
  unfold Catalog.declare at added
  split at added
  next => cases added
  next found isFound =>
    split at added
    next => cases added
    next absent =>
      cases added
      have sameName : found.name = package := by simpa using List.find?_some isFound
      have member : found ∈ catalog.packages := List.mem_of_find?_eq_some isFound
      have known : package ∈ catalog.packages.map Package.name :=
        sameName ▸ List.mem_map_of_mem member
      apply indexed.allot
      · rw [map_name_insertEntry]
        exact indexed.packageNames
      · exact indexed.registryNames
      · intro candidate listed
        rcases List.mem_append.mp listed with inserted | old
        · refine indexed.indexedIn_insertEntry ?_ _ _ ?_ candidate inserted
          · exact fun other inside => .inl (List.mem_append_left _ inside)
          · intro other inside otherName
            have same : other = found := List.inj_on_of_nodup_map indexed.packageNames inside
              member (otherName.trans sameName.symm)
            rw [same]
            exact absent
        · exact indexed.indexedIn_allot (List.mem_append_right _ old) _ _ _ _
      · rw [List.flatMap_append]
        refine ((perm_insertEntry indexed.packageNames known _ _).append_right _).trans ?_
        simp [allPackages]

theorem mem_registryWith (catalog : Catalog) (package : String) :
    package ∈ (catalog.registryWith package).map Package.name := by
  unfold registryWith
  split
  next present =>
    obtain ⟨found, member, same⟩ := List.any_eq_true.mp present
    exact List.mem_map.mpr ⟨found, member, by simpa using same⟩
  next => simp

/-- A registry package that appears on demand has a name of its own and no entries. -/
theorem Indexed.registryWith (indexed : catalog.Indexed) (package : String) :
    ((catalog.registryWith package).map Package.name).Nodup ∧
      (∀ other ∈ catalog.registryWith package, other ∈ catalog.registry ∨ other.entries = []) ∧
      (catalog.registryWith package).flatMap Package.handles =
        catalog.registry.flatMap Package.handles := by
  unfold Catalog.registryWith
  split
  next => exact ⟨indexed.registryNames, fun _ => .inl, rfl⟩
  next absent =>
    refine ⟨?_, ?_, by simp⟩
    · have fresh : package ∉ catalog.registry.map Package.name := by
        intro listed
        obtain ⟨other, member, same⟩ := List.mem_map.mp listed
        exact absent (List.any_eq_true.mpr ⟨other, member, by simpa using same⟩)
      simpa using indexed.registryNames.concat fresh
    · intro other member
      rcases List.mem_append.mp member with old | new
      · exact .inl old
      · exact .inr (by rw [List.mem_singleton.mp new]; rfl)

/-- A registered catalog lists the new declaration in its registry package. -/
theorem Indexed.register (indexed : catalog.Indexed) {package : String}
    {declaration : Declaration} {handle : Handle} {larger : Catalog}
    (added : catalog.register package declaration = .ok (handle, larger)) : larger.Indexed := by
  unfold Catalog.register at added
  dsimp only at added
  split at added
  next => cases added
  next untaken =>
    cases added
    obtain ⟨distinct, known, sameHandles⟩ := indexed.registryWith package
    apply indexed.allot
    · exact indexed.packageNames
    · rw [map_name_insertEntry]
      exact distinct
    · intro candidate listed
      rcases List.mem_append.mp listed with old | inserted
      · exact indexed.indexedIn_allot (List.mem_append_left _ old) _ _ _ _
      · refine indexed.indexedIn_insertEntry ?_ _ _ ?_ candidate inserted
        · exact fun other inside => (known other inside).imp_left (List.mem_append_right _)
        · intro other inside sameName
          rcases known other inside with old | bare
          · cases found : other.get? declaration.name with
            | none => rfl
            | some taken =>
                exfalso
                apply untaken
                exact List.any_eq_true.mpr ⟨other, old, by simp [sameName, found]⟩
          · simp [Package.get?, bare]
    · rw [List.flatMap_append]
      have inserted := perm_insertEntry distinct (mem_registryWith catalog package)
        declaration.name catalog.nextHandle
      rw [sameHandles] at inserted
      refine (inserted.append_left _).trans ?_
      simp [allPackages]

end TypeGraph.Catalog
