import TypeGraph.Proofs.Resolution.Comparison

/-!
This file shows that declaring more never loses anything. New packages and new declarations leave
the old places and entries as they are, so every set that supported itself before still does, even
where the new declarations shadow old names or are removed themselves.
-/

namespace TypeGraph

/-- The declaring commands add a package or a declaration of a package. -/
def Command.isDeclaring : Command → Bool
  | .addPackage _ => true
  | .declare _ _ => true
  | _ => false

theorem Command.editsWithin_of_isDeclaring {command : Command}
    (declaring : command.isDeclaring = true) (allowed : Declaration → Declaration → Prop) :
    command.EditsWithin allowed := by
  cases command with
  | edit => cases declaring
  | _ => trivial

namespace Catalog

variable {catalog smaller larger : Catalog} {handle : Handle} {options : Options}

/-! ### Extended catalogs -/

/-- A catalog extends to another one that has all of its entries, the same registry and the same
declarations at the old places. -/
structure ExtendsTo (smaller larger : Catalog) : Prop where
  packages : ∀ package ∈ smaller.packages, ∃ wider ∈ larger.packages,
    wider.name = package.name ∧ package.entries ⊆ wider.entries
  registry : larger.registry = smaller.registry
  size : smaller.arena.size ≤ larger.arena.size
  places : ∀ handle : Handle, handle.index < smaller.arena.size →
    larger.declaration? handle = smaller.declaration? handle

namespace ExtendsTo

theorem refl (catalog : Catalog) : catalog.ExtendsTo catalog where
  packages := fun package member => ⟨package, member, rfl, fun _ listed => listed⟩
  registry := rfl
  size := Nat.le_refl _
  places := fun _ _ => rfl

theorem addPackage (extension : smaller.ExtendsTo catalog) {name : String}
    (added : catalog.addPackage name = .ok larger) : smaller.ExtendsTo larger := by
  unfold Catalog.addPackage at added
  split at added
  next => cases added
  next =>
    cases added
    refine ⟨?_, extension.registry, extension.size, extension.places⟩
    intro package member
    obtain ⟨wider, inside, same, entries⟩ := extension.packages package member
    exact ⟨wider, List.mem_append_left _ inside, same, entries⟩

theorem declare (extension : smaller.ExtendsTo catalog) {package : String}
    {declaration : Declaration} (added : catalog.declare package declaration = .ok (handle, larger)) :
    smaller.ExtendsTo larger := by
  unfold Catalog.declare at added
  split at added
  next => cases added
  next =>
    split at added
    next => cases added
    next =>
      cases added
      refine ⟨?_, extension.registry, ?_, ?_⟩
      · intro old member
        obtain ⟨wider, inside, same, entries⟩ := extension.packages old member
        refine ⟨_, List.mem_map_of_mem inside, ?_, ?_⟩
        · split <;> exact same
        · split
          next => exact fun _ listed => List.mem_append_left _ (entries listed)
          next => exact entries
      · rw [Catalog.allot, Array.size_push]
        exact Nat.le_succ_of_le extension.size
      · intro old given
        have taken : old ≠ catalog.nextHandle := by
          rintro rfl
          exact Nat.not_lt.mpr extension.size given
        rw [declaration?_allot, if_neg taken]
        exact extension.places old given

/-- A declaring command extends a catalog, also when it is refused. -/
theorem perform (extension : smaller.ExtendsTo catalog) {command : Command}
    (declaring : command.isDeclaring = true) :
    smaller.ExtendsTo (catalog.perform command).catalog := by
  cases command with
  | addPackage name =>
      rw [Catalog.perform]
      cases added : catalog.addPackage name with
      | error refusal => exact extension
      | ok larger => exact extension.addPackage added
  | declare package declaration =>
      rw [Catalog.perform]
      cases added : catalog.declare package declaration with
      | error refusal => exact extension
      | ok outcome => exact extension.declare added
  | register => cases declaring
  | installStandard => cases declaring
  | remove => cases declaring
  | visit => cases declaring
  | resolve => cases declaring
  | edit => cases declaring

/-- A history of declaring commands extends a catalog. -/
theorem performAll (extension : smaller.ExtendsTo catalog) {commands : List Command}
    (declaring : ∀ command ∈ commands, command.isDeclaring = true) :
    smaller.ExtendsTo (catalog.performAll commands) := by
  induction commands generalizing catalog with
  | nil => exact extension
  | cons command rest inductionHypothesis =>
      obtain ⟨first, later⟩ := List.forall_mem_cons.mp declaring
      exact inductionHypothesis (extension.perform first) later

end ExtendsTo

/-! ### Preparations of extended catalogs -/

/-- A registry finds a qualified name when it registers something under a spelling of it. -/
theorem exists_lookup?_registry_iff (catalog : Catalog) (qualified : String) :
    (∃ package ∈ catalog.registry, (package.lookup? qualified).isSome = true) ↔
      ∃ package simple handle, catalog.Registers package simple handle ∧
        qualify package simple = qualified := by
  constructor
  · intro found
    obtain ⟨package, member, isSome⟩ := found
    obtain ⟨handle, leads⟩ := Option.isSome_iff_exists.mp isSome
    obtain ⟨simple, spelled, entry⟩ := Package.lookup?_eq_some_iff.mp leads
    exact ⟨package.name, simple, handle,
      ⟨package, member, rfl, Package.mem_entries_of_get? entry⟩, spelled⟩
  · intro registered
    obtain ⟨name, simple, handle, ⟨package, member, rfl, entry⟩, spelled⟩ := registered
    refine ⟨package, member, ?_⟩
    have present : package.get? simple ≠ none := fun absent =>
      Package.get?_eq_none_iff.mp absent (List.mem_map_of_mem entry)
    obtain ⟨other, leads⟩ := Option.ne_none_iff_exists'.mp present
    exact Option.isSome_iff_exists.mpr
      ⟨other, Package.lookup?_eq_some_iff.mpr ⟨simple, spelled, leads⟩⟩

/-- Extended catalogs are prepared by the same additions. -/
theorem ExtendsTo.additions_eq (extension : smaller.ExtendsTo larger) (options : Options) :
    larger.additions options = smaller.additions options := by
  rw [additions, additions, hasRegistry, hasRegistry, extension.registry]

/-- What is registered after the preparation of a catalog has a namesake in every extension. -/
theorem ExtendsTo.exists_registers (extension : smaller.ExtendsTo larger)
    {package simple : String}
    (registered : (smaller.prepare options).1.Registers package simple handle) :
    ∃ other, (larger.prepare options).1.Registers package simple other := by
  have installs := prepare_installs larger options
  rcases ((prepare_installs smaller options).registers package simple handle).mp registered with
    old | ⟨index, standard, listed, key, -⟩
  · refine ⟨handle, (installs.registers package simple handle).mpr (.inl ?_)⟩
    rw [Registers, extension.registry]
    exact old
  · refine ⟨_, (installs.registers package simple _).mpr (.inr ⟨index, standard, ?_, key, rfl⟩)⟩
    rw [extension.additions_eq]
    exact listed

/-- A prepared catalog lies within every extension that is prepared in the same way. -/
theorem ExtendsTo.liesWithin_prepare (extension : smaller.ExtendsTo larger)
    (smallerIndexed : smaller.Indexed) (largerIndexed : larger.Indexed) (options : Options) :
    (smaller.prepare options).1.LiesWithin (larger.prepare options).1 := by
  have smallerInstalls := prepare_installs smaller options
  have largerInstalls := prepare_installs larger options
  constructor
  case handles =>
    rw [smallerInstalls.handles_eq, largerInstalls.handles_eq]
    intro handle listed
    obtain ⟨package, member, inside⟩ := List.mem_flatMap.mp listed
    obtain ⟨simple, entry⟩ := Package.mem_handles_iff.mp inside
    obtain ⟨wider, widerMember, -, entries⟩ := extension.packages package member
    exact List.mem_flatMap_of_mem widerMember
      (Package.mem_handles_iff.mpr ⟨simple, entries entry⟩)
  case places =>
    rw [smallerInstalls.handles_eq]
    intro handle listed
    have given : handle.index < smaller.arena.size :=
      smallerIndexed.index_lt (mem_handles_allPackages_iff.mpr (.inl listed))
    rw [largerInstalls.declaration?_of_lt (Nat.lt_of_lt_of_le given extension.size),
      smallerInstalls.declaration?_of_lt given, extension.places handle given]
  case lookups =>
    intro keeps qualified found
    rw [isSome_lookupWithin_iff (Indexed.persists_of_sameName.prepare smallerIndexed options),
      smallerInstalls.packages, exists_lookup?_registry_iff] at found
    rw [isSome_lookupWithin_iff (Indexed.persists_of_sameName.prepare largerIndexed options),
      largerInstalls.packages, exists_lookup?_registry_iff]
    rcases found with ⟨package, member, handle, leads, kept⟩ |
      ⟨package, simple, handle, registered, spelled⟩
    · obtain ⟨wider, widerMember, sameName, entries⟩ := extension.packages package member
      obtain ⟨simple, spelled, entry⟩ := Package.lookup?_eq_some_iff.mp leads
      have distinct := (largerIndexed.indexed wider (List.mem_append_left _ widerMember)).distinct
      refine .inl ⟨wider, widerMember, handle, Package.lookup?_eq_some_iff.mpr ⟨simple, ?_, ?_⟩,
        kept⟩
      · rw [sameName, spelled]
      · exact (Package.get?_eq_some_iff distinct).mpr (entries (Package.mem_entries_of_get? entry))
    · obtain ⟨other, registeredThere⟩ := extension.exists_registers registered
      exact .inr ⟨package, simple, other, registeredThere, spelled⟩

/-! ### Runs over extended catalogs -/

/-- After any history without a renaming, declaring more loses nothing: what survives a run without
a limit also survives it after more was declared, with every part that survived before. -/
theorem resolve_enlarged {commands more : List Command}
    (named : ∀ command ∈ commands, command.EditsWithin Declaration.SameName)
    (declaring : ∀ command ∈ more, command.isDeclaring = true) {options : Options}
    (unlimited : options.passLimit = none) :
    let smaller := Catalog.empty.performAll commands
    let larger := smaller.performAll more
    ∀ entry ∈ (smaller.resolve options).catalog.declarations, ∃ later,
      (entry.1, later) ∈ (larger.resolve options).catalog.declarations ∧
        later.ShrinksTo options.policy entry.2 := by
  intro smaller larger entry survives
  have smallerIndexed : smaller.Indexed := performAll_indexed named
  have largerIndexed : larger.Indexed :=
    Indexed.persists_of_sameName.performAll smallerIndexed fun command listed =>
      Command.editsWithin_of_isDeclaring (declaring command listed) _
  have extension : smaller.ExtendsTo larger := (ExtendsTo.refl smaller).performAll declaring
  have within := extension.liesWithin_prepare smallerIndexed largerIndexed options
  have smallerPrepared := Indexed.persists_of_sameName.prepare smallerIndexed options
  have largerPrepared := Indexed.persists_of_sameName.prepare largerIndexed options
  obtain ⟨_, later, -, declared, -, keeps⟩ := within.exists_survivor (.refl _) smallerPrepared
    largerPrepared (smallerPrepared.hasDescended unlimited)
    (largerPrepared.hasDescended unlimited) survives
  exact ⟨later, declared, keeps⟩

/-- In this history a class extends another one and has a field of a type that is not declared. -/
def sheltered : List Command :=
  [.addPackage "", .addPackage "p", .declare "p" (.newClass "Base"),
    .declare "p" ((((Declaration.newClass "Heir").withSupertype "p.Base").withMember
      (.field ⟨"base", .ofText "p.Base"⟩)).withMember (.field ⟨"new", .ofText "p.New"⟩))]

/-- These commands declare the type of the field and, in the unnamed package, a class that shadows
the superclass until it is removed itself. -/
def shadowing : List Command :=
  [.declare "" ((Declaration.newClass "p.Base").withSupertype "p.Missing"),
    .declare "p" (.newClass "New")]

/-- The shadowing class falls, so the heir survives and keeps the field that now has a type. -/
theorem resolve_enlarged_shadowing :
    let smaller := Catalog.empty.performAll sheltered
    let larger := smaller.performAll shadowing
    (∀ command ∈ sheltered, command.EditsWithin Declaration.SameName) ∧
      (∀ command ∈ shadowing, command.isDeclaring = true) ∧ Options.standard.passLimit = none ∧
      ((smaller.resolve .standard).catalog.declarations.map fun entry =>
        (entry.2.name, entry.2.members.length)) = [("Base", 0), ("Heir", 1)] ∧
      ((larger.resolve .standard).catalog.declarations.map fun entry =>
        (entry.2.name, entry.2.members.length)) = [("Base", 0), ("Heir", 2), ("New", 0)] ∧
      (larger.resolve .standard).summary.removed = ["p.Base"] ∧
      ∀ entry ∈ (smaller.resolve .standard).catalog.declarations, ∃ later,
        (entry.1, later) ∈ (larger.resolve .standard).catalog.declarations ∧
          later.ShrinksTo Options.standard.policy entry.2 := by
  intro smaller larger
  have named : ∀ command ∈ sheltered, command.EditsWithin Declaration.SameName := by
    simp [sheltered, Command.EditsWithin]
  have declaring : ∀ command ∈ shadowing, command.isDeclaring = true := by decide
  exact ⟨named, declaring, rfl, by decide +kernel, by decide +kernel, by decide +kernel,
    resolve_enlarged named declaring rfl⟩

end Catalog

end TypeGraph
