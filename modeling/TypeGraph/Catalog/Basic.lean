import TypeGraph.Catalog.Package

/-!
This file defines the catalog of declarations: the packages of the described program, a registry of
packages that are only consulted after them, and one arena for the declarations of both. A handle
is never given to a second declaration.
-/

namespace TypeGraph

/-- A catalog keeps a place for every declaration it ever held, which is empty after removal. -/
structure Catalog where
  packages : List Package
  registry : List Package
  arena : Array (Option Declaration)
deriving DecidableEq

/-- A refusal says why an entry was not taken. -/
inductive Refusal where
  | duplicatePackage (package : String)
  | unknownPackage (package : String)
  | duplicateDeclaration (package name : String)
deriving DecidableEq, Repr

/-- The message names the entry that was refused. -/
def Refusal.message : Refusal → String
  | .duplicatePackage package => "Duplicate package: " ++ package
  | .unknownPackage package => "Unknown package: " ++ package
  | .duplicateDeclaration package name =>
      "Duplicate type '" ++ name ++ "' in package '" ++ package ++ "'"

namespace Catalog

/-- An empty catalog has neither packages nor declarations. -/
def empty : Catalog :=
  ⟨[], [], #[]⟩

/-- The next handle is the first place after the arena. -/
def nextHandle (catalog : Catalog) : Handle :=
  ⟨catalog.arena.size⟩

/-- A handle leads to a declaration unless it was removed or never given. -/
def declaration? (catalog : Catalog) (handle : Handle) : Option Declaration :=
  catalog.arena[handle.index]?.join

/-- A live handle leads to a declaration. -/
def isLive (catalog : Catalog) (handle : Handle) : Bool :=
  (catalog.declaration? handle).isSome

/-- This count bounds how many declarations can still be removed. -/
def liveCount (catalog : Catalog) : Nat :=
  catalog.arena.countP Option.isSome

/-- Only a live handle has a qualified name. -/
def qualifiedName? (catalog : Catalog) (handle : Handle) : Option String :=
  (catalog.declaration? handle).map Declaration.qualifiedName

/-- A package is found by its exact name, and registry packages are not looked at. -/
def package? (catalog : Catalog) (name : String) : Option Package :=
  catalog.packages.find? fun package => package.name == name

/-- The handles that the packages list, in package order. -/
def handles (catalog : Catalog) : List Handle :=
  catalog.packages.flatMap Package.handles

/-- The live declarations of the packages, without the registry, in package order. -/
def declarations (catalog : Catalog) : List (Handle × Declaration) :=
  catalog.handles.filterMap fun handle =>
    (catalog.declaration? handle).map fun declaration => (handle, declaration)

/-- This count includes entries whose declaration was renamed and removed. -/
def entryCount (catalog : Catalog) : Nat :=
  catalog.handles.length

/-- A registry counts as present once some package of it has an entry. -/
def hasRegistry (catalog : Catalog) : Bool :=
  catalog.registry.any fun package => !package.isEmpty

/-- The packages come first and the registry second; within each the first package wins. -/
def lookup? (catalog : Catalog) (qualified : String) : Option Handle :=
  (catalog.packages.findSome? fun package => package.lookup? qualified).or
    (catalog.registry.findSome? fun package => package.lookup? qualified)

/-- A package is declared once. -/
def addPackage (catalog : Catalog) (name : String) : Except Refusal Catalog :=
  match catalog.package? name with
  | some _ => .error (.duplicatePackage name)
  | none => .ok { catalog with packages := catalog.packages ++ [.empty name] }

/-- An entry is put into the package of the given name. -/
def insertEntry (packages : List Package) (package simple : String) (handle : Handle) :
    List Package :=
  packages.map fun candidate =>
    if candidate.name = package then candidate.insert simple handle else candidate

/-- An entry is erased from the package of the given name. -/
def eraseEntry (packages : List Package) (package simple : String) (handle : Handle) :
    List Package :=
  packages.map fun candidate =>
    if candidate.name = package then candidate.erase simple handle else candidate

/-- A place is allotted to a declaration of the given package. -/
def allot (catalog : Catalog) (package : String) (declaration : Declaration) :
    Array (Option Declaration) :=
  catalog.arena.push (some { declaration with package := package })

/-- A declaration is added to a known package that has no entry of its name. -/
def declare (catalog : Catalog) (package : String) (declaration : Declaration) :
    Except Refusal (Handle × Catalog) :=
  match catalog.package? package with
  | none => .error (.unknownPackage package)
  | some found =>
      match found.get? declaration.name with
      | some _ => .error (.duplicateDeclaration package declaration.name)
      | none =>
          .ok (catalog.nextHandle,
            { catalog with
              packages := insertEntry catalog.packages package declaration.name catalog.nextHandle
              arena := catalog.allot package declaration })

/-- A package of the registry appears when the first declaration is registered in it. -/
def registryWith (catalog : Catalog) (package : String) : List Package :=
  if catalog.registry.any fun candidate => candidate.name == package then catalog.registry
  else catalog.registry ++ [Package.empty package]

/-- A declaration is registered under a name that its registry package does not list yet. -/
def register (catalog : Catalog) (package : String) (declaration : Declaration) :
    Except Refusal (Handle × Catalog) :=
  let taken := catalog.registry.any fun candidate =>
    candidate.name == package && (candidate.get? declaration.name).isSome
  if taken then .error (.duplicateDeclaration package declaration.name)
  else
    .ok (catalog.nextHandle,
      { catalog with
        registry :=
          insertEntry (catalog.registryWith package) package declaration.name catalog.nextHandle
        arena := catalog.allot package declaration })

/-- A live declaration is replaced without a change of the packages. -/
def update (catalog : Catalog) (handle : Handle) (change : Declaration → Declaration) :
    Catalog :=
  match catalog.declaration? handle with
  | none => catalog
  | some declaration =>
      { catalog with arena := catalog.arena.setIfInBounds handle.index (some (change declaration)) }

/-- A removal empties the place and erases the entry under the current name of the declaration. -/
def remove (catalog : Catalog) (handle : Handle) : Catalog :=
  match catalog.declaration? handle with
  | none => catalog
  | some declaration =>
      { packages := eraseEntry catalog.packages declaration.package declaration.name handle
        registry := eraseEntry catalog.registry declaration.package declaration.name handle
        arena := catalog.arena.setIfInBounds handle.index none }

/-- A reference dangles when one of its targets is no longer live. -/
def dangles (catalog : Catalog) (reference : Reference) : Bool :=
  reference.targets.any fun target => !catalog.isLive target

/-- The live declarations that hold a dangling reference are reported by qualified name. -/
def danglingHolders (catalog : Catalog) : List String :=
  (catalog.declarations.filter fun entry => entry.2.references.any catalog.dangles).map
    fun entry => entry.2.qualifiedName

theorem declaration?_eq_some_iff {catalog : Catalog} {handle : Handle}
    {declaration : Declaration} :
    catalog.declaration? handle = some declaration ↔
      catalog.arena[handle.index]? = some (some declaration) := by
  simp [declaration?, Option.join_eq_some_iff]

@[simp] theorem packages_update (catalog : Catalog) (handle : Handle)
    (change : Declaration → Declaration) :
    (catalog.update handle change).packages = catalog.packages := by
  unfold update
  split <;> rfl

@[simp] theorem registry_update (catalog : Catalog) (handle : Handle)
    (change : Declaration → Declaration) :
    (catalog.update handle change).registry = catalog.registry := by
  unfold update
  split <;> rfl

@[simp] theorem size_update (catalog : Catalog) (handle : Handle)
    (change : Declaration → Declaration) :
    (catalog.update handle change).arena.size = catalog.arena.size := by
  unfold update
  split
  next => rfl
  next => exact Array.size_setIfInBounds

@[simp] theorem size_remove (catalog : Catalog) (handle : Handle) :
    (catalog.remove handle).arena.size = catalog.arena.size := by
  unfold remove
  split
  next => rfl
  next => exact Array.size_setIfInBounds

/-- An update changes one place of the arena. -/
theorem declaration?_update (catalog : Catalog) (handle other : Handle)
    (change : Declaration → Declaration) :
    (catalog.update handle change).declaration? other =
      if other = handle then (catalog.declaration? handle).map change
      else catalog.declaration? other := by
  unfold update
  split
  next absent =>
    split
    next same => rw [same, absent]; rfl
    next => rfl
  next declaration found =>
    obtain ⟨inside, present⟩ := Array.getElem?_eq_some_iff.mp (declaration?_eq_some_iff.mp found)
    by_cases same : other = handle
    · subst same
      simp [declaration?, inside, present]
    · have apart : handle.index ≠ other.index := fun equal => same (by
        cases handle; cases other; simp_all)
      simp [declaration?, apart, same]

/-- A removal empties one place of the arena. -/
theorem declaration?_remove (catalog : Catalog) (handle other : Handle) :
    (catalog.remove handle).declaration? other =
      if other = handle then none else catalog.declaration? other := by
  unfold remove
  split
  next absent =>
    split
    next same => rw [same, absent]
    next => rfl
  next declaration found =>
    by_cases same : other = handle
    · subst same
      simp [declaration?, Array.getElem?_setIfInBounds]
      split <;> simp
    · have apart : handle.index ≠ other.index := fun equal => same (by
        cases handle; cases other; simp_all)
      simp [declaration?, apart, same]

/-- A catalog is determined by its packages, its registry and what its handles lead to. -/
theorem ext_declaration? {first second : Catalog} (packages : first.packages = second.packages)
    (registry : first.registry = second.registry)
    (size : first.arena.size = second.arena.size)
    (places : ∀ handle, first.declaration? handle = second.declaration? handle) :
    first = second := by
  have arena : first.arena = second.arena := by
    apply Array.ext size
    intro index inFirst inSecond
    have place := places ⟨index⟩
    simpa [declaration?, inFirst, inSecond] using place
  cases first
  cases second
  rw [mk.injEq]
  exact ⟨packages, registry, arena⟩

/-- An update keeps the number of live declarations. -/
theorem liveCount_update (catalog : Catalog) (handle : Handle)
    (change : Declaration → Declaration) :
    (catalog.update handle change).liveCount = catalog.liveCount := by
  unfold update
  split
  next => rfl
  next declaration found =>
    obtain ⟨inside, present⟩ := Array.getElem?_eq_some_iff.mp (declaration?_eq_some_iff.mp found)
    have positive : 0 < catalog.liveCount := by
      apply Array.countP_pos_iff.mpr
      exact ⟨_, Array.getElem_mem inside, by simp [present]⟩
    simp only [liveCount, Array.setIfInBounds, inside, dite_true] at positive ⊢
    rw [Array.countP_set]
    simp [present]
    omega

/-- A removal of a live declaration lowers the number of live declarations by one. -/
theorem liveCount_remove {catalog : Catalog} {handle : Handle} {declaration : Declaration}
    (found : catalog.declaration? handle = some declaration) :
    (catalog.remove handle).liveCount + 1 = catalog.liveCount := by
  obtain ⟨inside, present⟩ := Array.getElem?_eq_some_iff.mp (declaration?_eq_some_iff.mp found)
  have positive : 0 < catalog.liveCount := by
    apply Array.countP_pos_iff.mpr
    exact ⟨_, Array.getElem_mem inside, by simp [present]⟩
  simp only [remove, found]
  simp only [liveCount, Array.setIfInBounds, inside, dite_true] at positive ⊢
  rw [Array.countP_set]
  simp [present]
  omega

end Catalog

end TypeGraph
