import TypeGraph.Proofs.Catalog.Separation

/-!
This file says what the installation of the standard registry adds to a catalog. Every entry of the
table gets its own new place and its own entry of the registry, and nothing else changes.
-/

namespace TypeGraph

/-- The key of a standard declaration is what it is registered under. -/
def StandardDeclaration.key (standard : StandardDeclaration) : String × String :=
  (standard.package, standard.declaration.name)

/-- A standard declaration is placed in its package. -/
def StandardDeclaration.placed (standard : StandardDeclaration) : Declaration :=
  { standard.declaration with package := standard.package }

/-- No two standard declarations are registered under one name. -/
theorem StandardDeclaration.nodup_keys : (table.map key).Nodup := by
  decide

namespace Catalog

variable {catalog : Catalog} {options : Options}

/-- The registry lists a handle under the name of a package and a simple name. -/
def Registers (catalog : Catalog) (package simple : String) (handle : Handle) : Prop :=
  ∃ found ∈ catalog.registry, found.name = package ∧ (simple, handle) ∈ found.entries

/-- An installation leaves the packages and the old places alone. Behind them it places the
declarations of a table in their order, and the registry lists each of them. -/
structure Installs (before after : Catalog) (table : List StandardDeclaration) : Prop where
  packages : after.packages = before.packages
  arena : after.arena = before.arena ++ (table.map fun standard => some standard.placed).toArray
  registers : ∀ package simple handle, after.Registers package simple handle ↔
    before.Registers package simple handle ∨
      ∃ index standard, table[index]? = some standard ∧ standard.key = (package, simple) ∧
        handle = ⟨before.arena.size + index⟩

theorem Installs.refl (catalog : Catalog) : Installs catalog catalog [] where
  packages := rfl
  arena := by simp
  registers := by simp

/-! ### Registrations -/

/-- The entries that an opened registry lists are the old ones. -/
theorem exists_mem_registryWith_iff (catalog : Catalog) (opened package simple : String)
    (handle : Handle) :
    (∃ found ∈ catalog.registryWith opened,
        found.name = package ∧ (simple, handle) ∈ found.entries) ↔
      catalog.Registers package simple handle := by
  unfold registryWith Registers
  split
  next => rfl
  next => simp [Package.empty]

/-- An inserted entry is listed in the packages of its name, and all others stay listed. -/
theorem exists_mem_insertEntry_iff {packages : List Package} {into : String}
    (known : into ∈ packages.map Package.name) (name : String) (new : Handle)
    (package simple : String) (handle : Handle) :
    (∃ found ∈ insertEntry packages into name new,
        found.name = package ∧ (simple, handle) ∈ found.entries) ↔
      (∃ found ∈ packages, found.name = package ∧ (simple, handle) ∈ found.entries) ∨
        (into, name) = (package, simple) ∧ handle = new := by
  constructor
  · intro listed
    obtain ⟨found, inserted, rfl, entry⟩ := listed
    obtain ⟨candidate, member, rfl⟩ := List.mem_map.mp inserted
    split at entry
    next same =>
      rcases List.mem_append.mp entry with old | only
      · refine .inl ⟨candidate, member, ?_, old⟩
        rw [if_pos same]
        rfl
      · obtain ⟨rfl, rfl⟩ := Prod.mk.inj (List.mem_singleton.mp only)
        rw [if_pos same]
        exact .inr ⟨by rw [← same]; rfl, rfl⟩
    next different =>
      refine .inl ⟨candidate, member, ?_, entry⟩
      rw [if_neg different]
  · intro listed
    rcases listed with ⟨candidate, member, rfl, entry⟩ | ⟨same, rfl⟩
    · refine ⟨_, List.mem_map_of_mem member, ?_, ?_⟩
      · split <;> rfl
      · split
        next => exact List.mem_append_left _ entry
        next => exact entry
    · obtain ⟨rfl, rfl⟩ := Prod.mk.inj same
      obtain ⟨candidate, member, sameName⟩ := List.mem_map.mp known
      refine ⟨_, List.mem_map_of_mem member, ?_⟩
      rw [if_pos sameName]
      exact ⟨sameName, List.mem_append_right _ List.mem_cons_self⟩

/-- A registration under a free name succeeds and adds one entry and one place. -/
theorem exists_register_of_free {package : String} {declaration : Declaration}
    (free : ∀ handle, ¬ catalog.Registers package declaration.name handle) :
    ∃ larger, catalog.register package declaration = .ok (catalog.nextHandle, larger) ∧
      larger.packages = catalog.packages ∧ larger.arena = catalog.allot package declaration ∧
      ∀ other simple handle, larger.Registers other simple handle ↔
        catalog.Registers other simple handle ∨
          (package, declaration.name) = (other, simple) ∧ handle = catalog.nextHandle := by
  have untaken : (catalog.registry.any fun candidate =>
      candidate.name == package && (candidate.get? declaration.name).isSome) = false := by
    rw [List.any_eq_false]
    intro candidate member taken
    obtain ⟨sameName, found⟩ := Bool.and_eq_true_iff.mp taken
    obtain ⟨handle, leads⟩ := Option.isSome_iff_exists.mp found
    exact free handle ⟨candidate, member, by simpa using sameName,
      Package.mem_entries_of_get? leads⟩
  simp only [register, untaken, Bool.false_eq_true, if_false]
  refine ⟨_, rfl, rfl, rfl, ?_⟩
  intro other simple handle
  have inserted := exists_mem_insertEntry_iff (mem_registryWith catalog package) declaration.name
    catalog.nextHandle other simple handle
  rw [exists_mem_registryWith_iff] at inserted
  exact inserted

/-- A table of distinct free names is registered as a whole. -/
theorem registerAll_installs {table : List StandardDeclaration}
    (distinct : (table.map StandardDeclaration.key).Nodup)
    (free : ∀ standard ∈ table, ∀ handle,
      ¬ catalog.Registers standard.package standard.declaration.name handle) :
    (catalog.registerAll table).refusal = none ∧
      Installs catalog (catalog.registerAll table).catalog table := by
  induction table generalizing catalog with
  | nil => exact ⟨rfl, .refl catalog⟩
  | cons standard rest inductionHypothesis =>
      obtain ⟨apart, distinctRest⟩ := List.nodup_cons.mp distinct
      obtain ⟨freeFirst, freeRest⟩ := List.forall_mem_cons.mp free
      obtain ⟨larger, added, packages, arena, registers⟩ := exists_register_of_free freeFirst
      -- the keys are distinct, so the first entry takes none of the other names
      have stillFree : ∀ other ∈ rest, ∀ handle,
          ¬ larger.Registers other.package other.declaration.name handle := by
        intro other listed handle taken
        rcases (registers _ _ _).mp taken with old | ⟨same, -⟩
        · exact freeRest other listed handle old
        · exact apart (List.mem_map.mpr ⟨other, listed, same.symm⟩)
      obtain ⟨accepted, later⟩ := inductionHypothesis distinctRest stillFree
      have size : larger.arena.size = catalog.arena.size + 1 := by
        rw [arena, allot, Array.size_push]
      simp only [registerAll, added]
      refine ⟨accepted, later.packages.trans packages, ?_, ?_⟩
      · rw [later.arena, arena]
        simp [allot, StandardDeclaration.placed]
      · intro package simple handle
        rw [later.registers, registers, or_assoc, size]
        apply or_congr_right
        constructor
        · rintro (⟨same, rfl⟩ | ⟨index, other, found, same, rfl⟩)
          · exact ⟨0, standard, rfl, same, rfl⟩
          · refine ⟨index + 1, other, found, same, ?_⟩
            rw [Nat.add_assoc, Nat.add_comm 1 index]
        · rintro ⟨index, other, found, same, rfl⟩
          cases index with
          | zero =>
              obtain rfl := Option.some.inj found
              exact .inl ⟨same, rfl⟩
          | succ index =>
              refine .inr ⟨index, other, found, same, ?_⟩
              rw [Nat.add_assoc, Nat.add_comm 1 index]

/-! ### Preparations -/

/-- A preparation adds the standard table when it is asked for and no registry is there yet. -/
def additions (catalog : Catalog) (options : Options) : List StandardDeclaration :=
  if options.installsStandard && !catalog.hasRegistry then StandardDeclaration.table else []

/-- A registry without entries lists nothing. -/
theorem not_registers_of_not_hasRegistry (absent : catalog.hasRegistry = false)
    (package simple : String) (handle : Handle) : ¬ catalog.Registers package simple handle := by
  intro listed
  obtain ⟨found, member, -, entry⟩ := listed
  have bare := List.any_eq_false.mp absent found member
  simp only [Package.isEmpty, Bool.not_eq_true, Bool.not_eq_false', List.isEmpty_iff] at bare
  rw [bare] at entry
  cases entry

/-- The standard table is never refused by a catalog without a registry. -/
theorem installStandard_installs (absent : catalog.hasRegistry = false) :
    catalog.installStandard.refusal = none ∧
      Installs catalog catalog.installStandard.catalog StandardDeclaration.table :=
  registerAll_installs StandardDeclaration.nodup_keys fun _ _ handle =>
    not_registers_of_not_hasRegistry absent _ _ handle

theorem additions_eq_nil_or (catalog : Catalog) (options : Options) :
    (catalog.additions options = [] ∧ catalog.prepare options = (catalog, [])) ∨
      (catalog.additions options = StandardDeclaration.table ∧ catalog.hasRegistry = false ∧
        catalog.prepare options =
          (catalog.installStandard.catalog,
            [⟨.installed StandardDeclaration.table.length, none⟩])) := by
  unfold additions prepare
  split
  next due =>
    have absent : catalog.hasRegistry = false := by
      simpa using (Bool.and_eq_true_iff.mp due).2
    dsimp only
    rw [(installStandard_installs absent).1]
    exact .inr ⟨rfl, absent, rfl⟩
  next => exact .inl ⟨rfl, rfl⟩

/-- A preparation installs its additions. -/
theorem prepare_installs (catalog : Catalog) (options : Options) :
    Installs catalog (catalog.prepare options).1 (catalog.additions options) := by
  rcases catalog.additions_eq_nil_or options with ⟨none, same⟩ | ⟨all, absent, same⟩
  · rw [none, same]
    exact .refl catalog
  · rw [all, same]
    exact (installStandard_installs absent).2

/-- A preparation announces an installation, and it reports nothing. -/
theorem event_of_mem_prepare {notice : Notice} (inside : notice ∈ (catalog.prepare options).2) :
    notice = ⟨.installed StandardDeclaration.table.length, none⟩ := by
  rcases catalog.additions_eq_nil_or options with ⟨-, same⟩ | ⟨-, -, same⟩
  · rw [same] at inside
    cases inside
  · rw [same] at inside
    exact List.mem_singleton.mp inside

/-- An installation keeps what was at the old places. -/
theorem Installs.declaration?_of_lt {before after : Catalog} {table : List StandardDeclaration}
    (installs : Installs before after table) {handle : Handle}
    (old : handle.index < before.arena.size) :
    after.declaration? handle = before.declaration? handle := by
  rw [declaration?, declaration?, installs.arena, Array.getElem?_append_left old]

/-- An installation puts the declarations of its table behind the old places. -/
theorem Installs.declaration?_added {before after : Catalog} {table : List StandardDeclaration}
    (installs : Installs before after table) (index : Nat) :
    after.declaration? ⟨before.arena.size + index⟩ =
      table[index]?.map StandardDeclaration.placed := by
  rw [declaration?, installs.arena, Array.getElem?_append_right (Nat.le_add_right _ _)]
  cases found : table[index]? with
  | none => simp [found]
  | some standard => simp [found]

/-- An installation lists the handles that were listed. -/
theorem Installs.handles_eq {before after : Catalog} {table : List StandardDeclaration}
    (installs : Installs before after table) : after.handles = before.handles := by
  rw [handles, handles, installs.packages]

/-- The registry is not among the declarations of the packages, so a preparation leaves these. -/
theorem IsSeparated.declarations_prepare (separated : catalog.IsSeparated) (options : Options) :
    (catalog.prepare options).1.declarations = catalog.declarations := by
  have installs := prepare_installs catalog options
  rw [declarations, declarations, installs.handles_eq]
  apply List.filterMap_congr
  intro handle listed
  have old : handle.index < catalog.arena.size :=
    separated.given handle (mem_handles_allPackages_iff.mpr (.inl listed))
  rw [installs.declaration?_of_lt old]

end Catalog

end TypeGraph
