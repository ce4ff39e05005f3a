import TypeGraph.Proofs.Catalog.History

/-!
This file compares lookups with scans. A lookup takes names apart package by package, and a scan
compares whole qualified names; both find the same declaration in every catalog whose packages and
arena agree.
-/

namespace TypeGraph

namespace Catalog

/-- The live declarations of the registry, package by package in the order of registering. -/
def registered (catalog : Catalog) : List (Handle × Declaration) :=
  (catalog.registry.flatMap Package.handles).filterMap fun handle =>
    (catalog.declaration? handle).map fun declaration => (handle, declaration)

/-- A scan stops at the first live declaration of the qualified name, and it looks at the packages
before the registry. -/
def scan? (catalog : Catalog) (qualified : String) : Option (Handle × Declaration) :=
  (catalog.declarations ++ catalog.registered).find? fun entry =>
    entry.2.qualifiedName == qualified

/-- A handle spells a qualified name when it leads to a declaration of that name. -/
def spells (catalog : Catalog) (qualified : String) (handle : Handle) : Bool :=
  catalog.qualifiedName? handle == some qualified

end Catalog

/-! ### Lookups in one package -/

namespace Package.IndexedIn

variable {package : Package} {catalog : Catalog} {qualified : String}

/-- The name of an entry joined to that of the package is the qualified name of the declaration. -/
theorem qualifiedName?_of_mem_entries (indexed : package.IndexedIn catalog) {simple : String}
    {handle : Handle} (entry : (simple, handle) ∈ package.entries) :
    catalog.qualifiedName? handle = some (qualify package.name simple) := by
  obtain ⟨declaration, found, sameName, samePackage⟩ := indexed.leads _ entry
  rw [Catalog.qualifiedName?, found, Option.map_some, Declaration.qualifiedName, sameName,
    samePackage]

/-- A package finds exactly its handles that spell the name. -/
theorem lookup?_eq_some_iff (indexed : package.IndexedIn catalog) {handle : Handle} :
    package.lookup? qualified = some handle ↔
      handle ∈ package.handles ∧ catalog.spells qualified handle = true := by
  rw [Package.lookup?_eq_some_iff]
  simp only [get?_eq_some_iff indexed.distinct, mem_handles_iff, Catalog.spells, beq_iff_eq]
  constructor
  · intro found
    obtain ⟨simple, spelled, entry⟩ := found
    exact ⟨⟨simple, entry⟩, spelled ▸ indexed.qualifiedName?_of_mem_entries entry⟩
  · intro found
    obtain ⟨⟨simple, entry⟩, spelled⟩ := found
    rw [indexed.qualifiedName?_of_mem_entries entry] at spelled
    exact ⟨simple, Option.some.inj spelled, entry⟩

/-- No two handles of a package spell the same name, so the first one is the one found. -/
theorem lookup?_eq_find? (indexed : package.IndexedIn catalog) (qualified : String) :
    package.lookup? qualified = package.handles.find? (catalog.spells qualified) := by
  apply Option.ext
  intro handle
  rw [indexed.lookup?_eq_some_iff]
  constructor
  · intro spelled
    obtain ⟨first, isFirst⟩ :=
      Option.isSome_iff_exists.mp (List.find?_isSome.mpr ⟨handle, spelled⟩)
    have foundFirst := indexed.lookup?_eq_some_iff.mpr
      ⟨List.mem_of_find?_eq_some isFirst, List.find?_some isFirst⟩
    rw [indexed.lookup?_eq_some_iff.mpr spelled] at foundFirst
    rw [isFirst, foundFirst]
  · intro first
    exact ⟨List.mem_of_find?_eq_some first, List.find?_some first⟩

end Package.IndexedIn

/-! ### Lookups in the whole catalog -/

namespace Catalog

variable {catalog : Catalog} {qualified : String}

/-- Packages that are searched one after the other are searched like one list of handles. -/
theorem findSome?_lookup? {packages : List Package}
    (indexed : ∀ package ∈ packages, package.IndexedIn catalog) (qualified : String) :
    (packages.findSome? fun package => package.lookup? qualified) =
      (packages.flatMap Package.handles).find? (catalog.spells qualified) := by
  induction packages with
  | nil => rfl
  | cons first rest inductionHypothesis =>
      obtain ⟨firstIndexed, restIndexed⟩ := List.forall_mem_cons.mp indexed
      rw [List.findSome?_cons, List.flatMap_cons, List.find?_append,
        firstIndexed.lookup?_eq_find?, inductionHypothesis restIndexed]
      cases first.handles.find? (catalog.spells qualified) <;> rfl

/-- The first declaration of a name is that of the first handle that spells the name. -/
theorem map_fst_find?_declarations (handles : List Handle) (qualified : String) :
    ((handles.filterMap fun handle =>
        (catalog.declaration? handle).map fun declaration => (handle, declaration)).find?
          fun entry => entry.2.qualifiedName == qualified).map Prod.fst =
      handles.find? (catalog.spells qualified) := by
  induction handles with
  | nil => rfl
  | cons handle rest inductionHypothesis =>
      cases found : catalog.declaration? handle with
      | none => simpa [found, spells, qualifiedName?] using inductionHypothesis
      | some declaration =>
          by_cases same : declaration.qualifiedName = qualified
          · simp [found, spells, qualifiedName?, same]
          · simpa [found, spells, qualifiedName?, same] using inductionHypothesis

/-- A lookup finds the first listed handle that spells the name. -/
theorem Indexed.lookup?_eq_find? (indexed : catalog.Indexed) (qualified : String) :
    catalog.lookup? qualified =
      (catalog.allPackages.flatMap Package.handles).find? (catalog.spells qualified) := by
  have packages : ∀ package ∈ catalog.packages, package.IndexedIn catalog :=
    fun package member => indexed.indexed package (List.mem_append_left _ member)
  have registry : ∀ package ∈ catalog.registry, package.IndexedIn catalog :=
    fun package member => indexed.indexed package (List.mem_append_right _ member)
  rw [lookup?, findSome?_lookup? packages, findSome?_lookup? registry, allPackages,
    List.flatMap_append, List.find?_append]

/-- A lookup in an indexed catalog finds what a scan finds first. -/
theorem Indexed.lookup?_eq_scan? (indexed : catalog.Indexed) (qualified : String) :
    catalog.lookup? qualified = (catalog.scan? qualified).map Prod.fst := by
  rw [indexed.lookup?_eq_find?, allPackages, List.flatMap_append, List.find?_append, scan?,
    List.find?_append, Option.map_or, declarations, registered, map_fst_find?_declarations,
    map_fst_find?_declarations, handles]

/-- After every history without a renaming, a lookup finds what a scan finds first: the packages
count before the registry, and within a package the earlier handle before the later one. What is
found is live and has exactly the name that was asked for. -/
theorem performAll_lookup? {commands : List Command}
    (named : ∀ command ∈ commands, command.EditsWithin Declaration.SameName)
    (qualified : String) :
    let catalog := Catalog.empty.performAll commands
    catalog.lookup? qualified = (catalog.scan? qualified).map Prod.fst ∧
      (∀ package ∈ catalog.allPackages,
        package.handles.Pairwise fun first second => first.index < second.index) ∧
      ∀ handle, catalog.lookup? qualified = some handle →
        catalog.isLive handle = true ∧ catalog.qualifiedName? handle = some qualified := by
  intro catalog
  have indexed : catalog.Indexed := performAll_indexed named
  refine ⟨indexed.lookup?_eq_scan? qualified, ?_, ?_⟩
  · exact fun package member => (indexed.indexed package member).ascending
  · intro handle found
    have spelled := indexed.qualifiedName?_of_lookup? found
    obtain ⟨declaration, isDeclaration, -⟩ := Option.map_eq_some_iff.mp spelled
    exact ⟨by simp [isLive, isDeclaration], spelled⟩

/-- In this history three packages and the registry spell the same qualified name, and the
declaration that comes first is removed and declared again. -/
def ambiguous : List Command :=
  [.addPackage "a", .addPackage "a.b", .addPackage "", .declare "a" (.newClass "b.C"),
    .declare "a.b" (.newClass "C"), .declare "" (.newInterface "a.b.C"),
    .register "a" (.newClass "b.C"), .remove ⟨0⟩, .declare "a" (.newInterface "b.C"),
    .edit ⟨1⟩ fun declaration => declaration.withMember (.field ⟨"next", .ofText "a.b.C"⟩)]

/-- The name leads to the declaration that was added last, since its package comes first. -/
theorem performAll_lookup?_ambiguous :
    let catalog := Catalog.empty.performAll ambiguous
    (∀ command ∈ ambiguous, command.EditsWithin Declaration.SameName) ∧
      catalog.lookup? "a.b.C" = some ⟨4⟩ ∧
      catalog.lookup? "a.b.C" = (catalog.scan? "a.b.C").map Prod.fst ∧
      (∀ package ∈ catalog.allPackages,
        package.handles.Pairwise fun first second => first.index < second.index) ∧
      ∀ handle, catalog.lookup? "a.b.C" = some handle →
        catalog.isLive handle = true ∧ catalog.qualifiedName? handle = some "a.b.C" := by
  have named : ∀ command ∈ ambiguous, command.EditsWithin Declaration.SameName := by
    simp [ambiguous, Command.EditsWithin, Declaration.SameName, Declaration.withMember]
  have first : (Catalog.empty.performAll ambiguous).lookup? "a.b.C" = some ⟨4⟩ := by
    decide +kernel
  exact ⟨named, first, performAll_lookup? named "a.b.C"⟩

end Catalog

end TypeGraph
