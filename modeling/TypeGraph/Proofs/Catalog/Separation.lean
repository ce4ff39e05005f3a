import TypeGraph.Proofs.Catalog.History

/-!
This file shows that packages and registry never share a handle, whatever declarations are renamed
to. A run visits the handles of the packages only, so it leaves the registry exactly as it was.
-/

namespace TypeGraph.Catalog

variable {catalog : Catalog} {policy : InterfacePolicy} {options : Options}

/-- No handle of the registry is a handle of the packages, and all of them have been given. -/
structure IsSeparated (catalog : Catalog) : Prop where
  given : ∀ handle ∈ catalog.allPackages.flatMap Package.handles,
    handle.index < catalog.arena.size
  apart : ∀ handle ∈ catalog.registry.flatMap Package.handles, handle ∉ catalog.handles

/-! ### Separation in every history -/

/-- An insertion lists one new handle at most. -/
theorem mem_handles_of_insertEntry {packages : List Package} {package simple : String}
    {handle new : Handle}
    (listed : handle ∈ (insertEntry packages package simple new).flatMap Package.handles) :
    handle = new ∨ handle ∈ packages.flatMap Package.handles := by
  obtain ⟨inserted, member, inside⟩ := List.mem_flatMap.mp listed
  obtain ⟨candidate, before, rfl⟩ := List.mem_map.mp member
  split at inside
  next =>
    rw [Package.handles_insert, List.mem_append, List.mem_singleton] at inside
    exact inside.symm.imp_right (List.mem_flatMap_of_mem before)
  next => exact .inr (List.mem_flatMap_of_mem before inside)

/-- An erasure lists no new handle. -/
theorem mem_handles_of_eraseEntry {packages : List Package} {package simple : String}
    {handle erased : Handle}
    (listed : handle ∈ (eraseEntry packages package simple erased).flatMap Package.handles) :
    handle ∈ packages.flatMap Package.handles := by
  obtain ⟨smaller, member, inside⟩ := List.mem_flatMap.mp listed
  obtain ⟨candidate, before, rfl⟩ := List.mem_map.mp member
  refine List.mem_flatMap_of_mem before ?_
  split at inside
  next => exact (List.filter_sublist.map Prod.snd).subset inside
  next => exact inside

/-- The empty catalog lists no handle at all. -/
theorem empty_isSeparated : Catalog.empty.IsSeparated where
  given := by
    intro handle listed
    cases listed
  apart := by
    intro handle listed
    cases listed

/-- Every listed handle is on one of the two sides. -/
theorem mem_handles_allPackages_iff {handle : Handle} :
    handle ∈ catalog.allPackages.flatMap Package.handles ↔
      handle ∈ catalog.handles ∨ handle ∈ catalog.registry.flatMap Package.handles := by
  rw [allPackages, List.flatMap_append, List.mem_append, handles]

/-- The next handle is not listed yet. -/
theorem IsSeparated.nextHandle_not_mem (separated : catalog.IsSeparated) :
    catalog.nextHandle ∉ catalog.allPackages.flatMap Package.handles :=
  fun listed => Nat.lt_irrefl _ (separated.given _ listed)

/-- A new handle may be listed on one side. -/
theorem IsSeparated.allot (separated : catalog.IsSeparated) {packages registry : List Package}
    {package : String} {declaration : Declaration}
    (left : ∀ handle ∈ packages.flatMap Package.handles,
      handle = catalog.nextHandle ∨ handle ∈ catalog.handles)
    (right : ∀ handle ∈ registry.flatMap Package.handles,
      handle = catalog.nextHandle ∨ handle ∈ catalog.registry.flatMap Package.handles)
    (once : catalog.nextHandle ∉ packages.flatMap Package.handles ∨
      catalog.nextHandle ∉ registry.flatMap Package.handles) :
    IsSeparated ⟨packages, registry, catalog.allot package declaration⟩ where
  given := by
    intro handle listed
    have known : handle = catalog.nextHandle ∨
        handle ∈ catalog.allPackages.flatMap Package.handles := by
      rw [mem_handles_allPackages_iff]
      rcases mem_handles_allPackages_iff.mp listed with inside | inside
      · exact (left handle inside).imp_right .inl
      · exact (right handle inside).imp_right .inr
    rw [Catalog.allot, Array.size_push]
    rcases known with rfl | old
    · exact Nat.lt_succ_self _
    · exact Nat.lt_succ_of_lt (separated.given handle old)
  apart := by
    intro handle inRegistry inPackages
    by_cases new : handle = catalog.nextHandle
    · subst new
      exact once.elim (· inPackages) (· inRegistry)
    · exact separated.apart handle ((right handle inRegistry).resolve_left new)
        ((left handle inPackages).resolve_left new)

/-- An added package lists nothing, so the two sides stay apart. -/
theorem IsSeparated.addPackage (separated : catalog.IsSeparated) {name : String}
    {larger : Catalog} (added : catalog.addPackage name = .ok larger) : larger.IsSeparated := by
  unfold Catalog.addPackage at added
  split at added
  next => cases added
  next =>
    cases added
    have sameHandles : (catalog.packages ++ [Package.empty name]).flatMap Package.handles =
        catalog.packages.flatMap Package.handles := by simp
    constructor
    · simpa only [allPackages, List.flatMap_append, sameHandles] using separated.given
    · simpa only [handles, sameHandles] using separated.apart

/-- A declaration enters the packages under a new handle. -/
theorem IsSeparated.declare (separated : catalog.IsSeparated) {package : String}
    {declaration : Declaration} {handle : Handle} {larger : Catalog}
    (added : catalog.declare package declaration = .ok (handle, larger)) :
    larger.IsSeparated := by
  unfold Catalog.declare at added
  split at added
  next => cases added
  next =>
    split at added
    next => cases added
    next =>
      cases added
      refine separated.allot (fun _ => mem_handles_of_insertEntry) (fun _ => .inr) (.inr ?_)
      exact fun listed =>
        separated.nextHandle_not_mem (mem_handles_allPackages_iff.mpr (.inr listed))

/-- A registration enters the registry under a new handle. -/
theorem IsSeparated.register (separated : catalog.IsSeparated) {package : String}
    {declaration : Declaration} {handle : Handle} {larger : Catalog}
    (added : catalog.register package declaration = .ok (handle, larger)) :
    larger.IsSeparated := by
  have opened : (catalog.registryWith package).flatMap Package.handles =
      catalog.registry.flatMap Package.handles := by
    unfold registryWith
    split <;> simp
  unfold Catalog.register at added
  dsimp only at added
  split at added
  next => cases added
  next =>
    cases added
    refine separated.allot (fun _ => .inr) ?_ (.inl ?_)
    · rw [← opened]
      exact fun _ => mem_handles_of_insertEntry
    · exact fun listed =>
        separated.nextHandle_not_mem (mem_handles_allPackages_iff.mpr (.inl listed))

/-- A removal lists no new handle on either side. -/
theorem IsSeparated.remove (separated : catalog.IsSeparated) (handle : Handle) :
    (catalog.remove handle).IsSeparated := by
  have packages : ∀ other ∈ (catalog.remove handle).packages.flatMap Package.handles,
      other ∈ catalog.packages.flatMap Package.handles := by
    unfold Catalog.remove
    split
    next => exact fun _ => id
    next => exact fun _ => mem_handles_of_eraseEntry
  have registry : ∀ other ∈ (catalog.remove handle).registry.flatMap Package.handles,
      other ∈ catalog.registry.flatMap Package.handles := by
    unfold Catalog.remove
    split
    next => exact fun _ => id
    next => exact fun _ => mem_handles_of_eraseEntry
  constructor
  · intro other listed
    rw [size_remove]
    apply separated.given
    exact mem_handles_allPackages_iff.mpr
      ((mem_handles_allPackages_iff.mp listed).imp (packages other) (registry other))
  · intro other listed inside
    exact separated.apart other (registry other listed) (packages other inside)

/-- Packages and registry stay apart under every change of declarations. -/
theorem IsSeparated.persists : Persists IsSeparated (fun _ => True) fun _ _ => True where
  standard := fun _ _ => trivial
  fills := fun _ _ _ => trivial
  addPackage := fun separated added => separated.addPackage added
  declare := fun separated _ added => separated.declare added
  register := fun separated _ added => separated.register added
  remove := fun handle separated => separated.remove handle
  update := by
    intro catalog handle change separated _
    constructor
    · simpa only [allPackages, packages_update, registry_update, size_update] using
        separated.given
    · simpa only [handles, packages_update, registry_update] using separated.apart

/-- Every history separates packages and registry. -/
theorem performAll_isSeparated (commands : List Command) :
    (Catalog.empty.performAll commands).IsSeparated := by
  apply IsSeparated.persists.performAll empty_isSeparated
  intro command _
  cases command <;> simp [Command.EditsWithin]

/-! ### The registry during a run -/

/-- An entry that is not there cannot be erased. -/
theorem eraseEntry_eq_self {packages : List Package} {holder name : String} {erased : Handle}
    (absent : ∀ found ∈ packages, found.name = holder → (name, erased) ∉ found.entries) :
    eraseEntry packages holder name erased = packages := by
  refine (List.map_congr_left fun found member => ?_).trans (List.map_id packages)
  split
  next same =>
    have kept : found.entries.filter (fun entry => entry ≠ (name, erased)) = found.entries := by
      rw [List.filter_eq_self]
      intro entry listed
      apply decide_eq_true
      rintro rfl
      exact absent found member same listed
    rw [Package.erase, kept]
    rfl
  next => rfl

/-- A removal erases no entry of another handle. -/
theorem registry_remove_of_not_mem {handle : Handle}
    (absent : handle ∉ catalog.registry.flatMap Package.handles) :
    (catalog.remove handle).registry = catalog.registry := by
  unfold remove
  split
  next => rfl
  next declaration found =>
    apply eraseEntry_eq_self
    intro package member _ entry
    exact absent (List.mem_flatMap_of_mem member (List.mem_map_of_mem entry))

/-- A step leaves the registry alone if its handle is not registered. -/
theorem registry_step_of_not_mem {handle : Handle}
    (absent : handle ∉ catalog.registry.flatMap Package.handles) :
    (catalog.step policy handle).catalog.registry = catalog.registry := by
  have steps := step_steps catalog policy handle
  generalize (catalog.step policy handle).catalog = later at steps ⊢
  generalize (catalog.step policy handle).removed = removed at steps
  cases steps with
  | absent => rfl
  | filled declaration => exact registry_filled catalog handle declaration
  | removed => exact registry_remove_of_not_mem absent

/-- A pass over separated packages does not touch the registry. -/
theorem IsSeparated.registry_pass (separated : catalog.IsSeparated) :
    (catalog.pass policy).catalog.registry = catalog.registry := by
  have step : ∀ handle ∈ catalog.visitOrder, ∀ middle : Catalog,
      middle.registry = catalog.registry →
        (middle.step policy handle).catalog.registry = catalog.registry := by
    intro handle visited middle same
    rw [registry_step_of_not_mem, same]
    rw [same]
    exact fun listed => separated.apart handle listed (mem_visitOrder_iff.mp visited).1
  exact sweep_invariant step rfl

/-- No run of passes changes the registry. -/
theorem IsSeparated.registry_repeatPasses (separated : catalog.IsSeparated) (done : Nat) :
    (catalog.repeatPasses options done).catalog.registry = catalog.registry := by
  have pass : ∀ middle : Catalog,
      middle.IsSeparated ∧ middle.registry = catalog.registry →
        (middle.pass options.policy).catalog.IsSeparated ∧
          (middle.pass options.policy).catalog.registry = catalog.registry := by
    intro middle before
    obtain ⟨separatedMiddle, same⟩ := before
    exact ⟨IsSeparated.persists.pass separatedMiddle options.policy,
      separatedMiddle.registry_pass.trans same⟩
  exact (repeatPasses_invariant pass ⟨separated, rfl⟩ done).1.2

/-! ### The standard registry is installed once -/

/-- A registration leaves a registry behind. -/
theorem hasRegistry_of_register {package : String} {declaration : Declaration} {handle : Handle}
    {larger : Catalog} (added : catalog.register package declaration = .ok (handle, larger)) :
    larger.hasRegistry = true := by
  unfold register at added
  dsimp only at added
  split at added
  next => cases added
  next =>
    cases added
    obtain ⟨found, member, same⟩ := List.mem_map.mp (mem_registryWith catalog package)
    rw [hasRegistry, List.any_eq_true]
    refine ⟨found.insert declaration.name catalog.nextHandle, ?_, ?_⟩
    · refine List.mem_map.mpr ⟨found, member, ?_⟩
      rw [if_pos same]
    · simp [Package.isEmpty, Package.insert]

/-- Further registrations keep the registry. -/
theorem hasRegistry_registerAll (present : catalog.hasRegistry = true)
    (table : List StandardDeclaration) :
    (catalog.registerAll table).catalog.hasRegistry = true := by
  induction table generalizing catalog with
  | nil => exact present
  | cons standard rest inductionHypothesis =>
      unfold registerAll
      split
      next added => exact inductionHypothesis (hasRegistry_of_register added)
      next => exact present

/-- A registry without entries refuses no declaration. -/
theorem exists_register_of_not_hasRegistry (absent : catalog.hasRegistry = false)
    (package : String) (declaration : Declaration) :
    ∃ result, catalog.register package declaration = .ok result := by
  have untaken : (catalog.registry.any fun candidate =>
      candidate.name == package && (candidate.get? declaration.name).isSome) = false := by
    rw [List.any_eq_false]
    intro candidate member taken
    have bare := List.any_eq_false.mp absent candidate member
    simp only [Package.isEmpty, Bool.not_eq_true, Bool.not_eq_false', List.isEmpty_iff] at bare
    simp [Package.get?, bare] at taken
  simp only [register, untaken, Bool.false_eq_true, if_false]
  exact ⟨_, rfl⟩

/-- The standard table is not empty, so its installation leaves a registry behind. -/
theorem hasRegistry_installStandard (absent : catalog.hasRegistry = false) :
    catalog.installStandard.catalog.hasRegistry = true := by
  obtain ⟨⟨handle, larger⟩, added⟩ :=
    exists_register_of_not_hasRegistry absent "java.lang" (.newClass "Object")
  rw [installStandard, StandardDeclaration.table, registerAll, added]
  exact hasRegistry_registerAll (hasRegistry_of_register added) _

/-- A prepared catalog has a registry if one is asked for. -/
theorem hasRegistry_prepare (asked : options.installsStandard = true) :
    (catalog.prepare options).1.hasRegistry = true := by
  rw [fst_prepare]
  cases present : catalog.hasRegistry with
  | true => simpa [asked] using present
  | false => simpa [asked] using hasRegistry_installStandard present

/-- Where a registry is there already, preparation does nothing. -/
theorem prepare_of_hasRegistry
    (present : options.installsStandard = true → catalog.hasRegistry = true) :
    catalog.prepare options = (catalog, []) := by
  unfold prepare
  rw [if_neg]
  cases asked : options.installsStandard with
  | false => simp
  | true => simp [present asked]

/-- What a run leaves needs no preparation for another one. -/
theorem IsSeparated.prepare_resolve (separated : catalog.IsSeparated) {other : Options}
    (same : other.installsStandard = options.installsStandard) :
    (catalog.resolve options).catalog.prepare other = ((catalog.resolve options).catalog, []) := by
  apply prepare_of_hasRegistry
  intro asked
  have prepared := IsSeparated.persists.prepare separated options
  rw [catalog_resolve, hasRegistry, prepared.registry_repeatPasses]
  exact hasRegistry_prepare (same ▸ asked)

end TypeGraph.Catalog
