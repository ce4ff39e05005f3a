import TypeGraph.Proofs.Catalog.Installation
import TypeGraph.Proofs.Catalog.Permanence

/-!
This file follows the entries of declarations that are renamed. An entry keeps the name under which
its declaration came in, and a removal erases the entry under the present name; so an entry outlives
its declaration exactly when the declaration is removed under another name.
-/

namespace TypeGraph.Catalog

variable {catalog larger : Catalog} {handle other : Handle} {package simple : String}

/-! ### Entries -/

/-- Some package or registry package of the given name lists the handle under a simple name. -/
def Lists (catalog : Catalog) (package simple : String) (handle : Handle) : Prop :=
  ∃ found ∈ catalog.allPackages, found.name = package ∧ (simple, handle) ∈ found.entries

/-- The present names of a handle are the package and the simple name of its declaration. -/
def names? (catalog : Catalog) (handle : Handle) : Option (String × String) :=
  (catalog.declaration? handle).map fun declaration => (declaration.package, declaration.name)

/-- A handle is listed when some package has an entry for it. -/
theorem mem_handles_iff_exists_lists :
    handle ∈ catalog.allPackages.flatMap Package.handles ↔
      ∃ package simple, catalog.Lists package simple handle := by
  simp only [List.mem_flatMap, Package.mem_handles_iff, Lists]
  constructor
  · intro listed
    obtain ⟨found, member, simple, entry⟩ := listed
    exact ⟨found.name, simple, found, member, rfl, entry⟩
  · intro listed
    obtain ⟨_, simple, found, member, -, entry⟩ := listed
    exact ⟨found, member, simple, entry⟩

/-- What is found by name is listed. -/
theorem exists_lists_of_lookup? {qualified : String}
    (found : catalog.lookup? qualified = some handle) :
    ∃ package simple, catalog.Lists package simple handle := by
  obtain ⟨package, member, leads⟩ := exists_package_of_lookup? found
  obtain ⟨simple, -, entry⟩ := Package.lookup?_eq_some_iff.mp leads
  exact ⟨package.name, simple, package, member, rfl, Package.mem_entries_of_get? entry⟩

theorem lists_iff :
    catalog.Lists package simple handle ↔
      (∃ found ∈ catalog.packages, found.name = package ∧ (simple, handle) ∈ found.entries) ∨
        catalog.Registers package simple handle := by
  simp only [Lists, Registers, allPackages, List.mem_append, or_and_right, exists_or]

/-- An added package lists nothing, and no place changes. -/
theorem addPackage_lists {name : String} (added : catalog.addPackage name = .ok larger) :
    larger.arena = catalog.arena ∧ ∀ package simple handle,
      larger.Lists package simple handle ↔ catalog.Lists package simple handle := by
  unfold Catalog.addPackage at added
  split at added
  next => cases added
  next =>
    cases added
    simp [Lists, allPackages, Package.empty, or_and_right, exists_or]

/-- An allotted place has the names of its declaration. -/
theorem names?_allot (catalog : Catalog) (packages registry : List Package) (package : String)
    (declaration : Declaration) (handle : Handle) :
    names? ⟨packages, registry, catalog.allot package declaration⟩ handle =
      if handle = catalog.nextHandle then some (package, declaration.name)
      else catalog.names? handle := by
  rw [names?, declaration?_allot]
  split <;> rfl

/-- A declared or registered declaration adds one entry, under its own name. -/
structure Enters (before : Catalog) (package : String) (declaration : Declaration)
    (after : Catalog) : Prop where
  size : after.arena.size = before.arena.size + 1
  names : ∀ handle, after.names? handle =
    if handle = before.nextHandle then some (package, declaration.name) else before.names? handle
  lists : ∀ other simple handle, after.Lists other simple handle ↔
    before.Lists other simple handle ∨
      (package, declaration.name) = (other, simple) ∧ handle = before.nextHandle

/-- A declaration enters its package. -/
theorem enters_of_declare {declaration : Declaration}
    (added : catalog.declare package declaration = .ok (handle, larger)) :
    catalog.Enters package declaration larger := by
  unfold Catalog.declare at added
  split at added
  next => cases added
  next found isFound =>
    split at added
    next => cases added
    next =>
      cases added
      refine ⟨Array.size_push _, fun _ => names?_allot .., fun other simple handle => ?_⟩
      have sameName : found.name = package := by simpa using List.find?_some isFound
      have known : package ∈ catalog.packages.map Package.name :=
        sameName ▸ List.mem_map_of_mem (List.mem_of_find?_eq_some isFound)
      rw [lists_iff, lists_iff, or_right_comm]
      exact or_congr_left (exists_mem_insertEntry_iff known _ _ _ _ _)

/-- A registration enters its package in the registry, which is opened if need be. -/
theorem enters_of_register {declaration : Declaration}
    (added : catalog.register package declaration = .ok (handle, larger)) :
    catalog.Enters package declaration larger := by
  unfold Catalog.register at added
  dsimp only at added
  split at added
  next => cases added
  next =>
    cases added
    refine ⟨Array.size_push _, fun _ => names?_allot .., fun other simple handle => ?_⟩
    have inserted := exists_mem_insertEntry_iff (mem_registryWith catalog package)
      declaration.name catalog.nextHandle other simple handle
    rw [exists_mem_registryWith_iff] at inserted
    rw [lists_iff, lists_iff, or_assoc]
    exact or_congr_right inserted

/-- The packages lose one entry of one handle, and only those of the given name. -/
theorem exists_mem_eraseEntry_iff (packages : List Package) (holder name : String)
    (erased : Handle) :
    (∃ found ∈ eraseEntry packages holder name erased,
        found.name = package ∧ (simple, handle) ∈ found.entries) ↔
      (∃ found ∈ packages, found.name = package ∧ (simple, handle) ∈ found.entries) ∧
        ¬ (handle = erased ∧ (holder, name) = (package, simple)) := by
  constructor
  · intro listed
    obtain ⟨smaller, inside, sameName, entry⟩ := listed
    obtain ⟨found, member, rfl⟩ := List.mem_map.mp inside
    split at sameName
    next same =>
      rw [if_pos same] at entry
      obtain ⟨old, different⟩ := List.mem_filter.mp entry
      refine ⟨⟨found, member, sameName, old⟩, ?_⟩
      rintro ⟨rfl, erasedEntry⟩
      obtain ⟨rfl, rfl⟩ := Prod.mk.inj erasedEntry
      simp at different
    next apart =>
      rw [if_neg apart] at entry
      refine ⟨⟨found, member, sameName, entry⟩, ?_⟩
      rintro ⟨-, erasedEntry⟩
      exact apart (sameName.trans (Prod.mk.inj erasedEntry).1.symm)
  · rintro ⟨⟨found, member, rfl, entry⟩, other⟩
    refine ⟨_, List.mem_map_of_mem member, ?_, ?_⟩
    · split <;> rfl
    · split
      next same =>
        refine List.mem_filter.mpr ⟨entry, decide_eq_true ?_⟩
        rintro erasedEntry
        obtain ⟨rfl, rfl⟩ := Prod.mk.inj erasedEntry
        exact other ⟨rfl, by rw [same]⟩
      next => exact entry

/-- A removal erases the entry of the handle under its present names. -/
theorem lists_remove :
    (catalog.remove other).Lists package simple handle ↔
      catalog.Lists package simple handle ∧
        ¬ (handle = other ∧ catalog.names? other = some (package, simple)) := by
  unfold remove
  cases found : catalog.declaration? other with
  | none => simp [names?, found]
  | some declaration =>
      simp only [Lists, allPackages, names?, found, Option.map_some, Option.some.injEq]
      rw [eraseEntry, eraseEntry, ← List.map_append, ← eraseEntry, exists_mem_eraseEntry_iff]

/-! ### Files -/

/-- A handle is well filed when every entry of it carries the present names of its declaration. -/
def IsWellFiled (catalog : Catalog) (handle : Handle) : Prop :=
  ∀ package simple, catalog.Lists package simple handle →
    catalog.names? handle = some (package, simple)

/-- A well filed handle that is listed is live. -/
theorem IsWellFiled.isLive (filed : catalog.IsWellFiled handle)
    (listed : handle ∈ catalog.allPackages.flatMap Package.handles) :
    catalog.isLive handle = true := by
  obtain ⟨package, simple, entry⟩ := mem_handles_iff_exists_lists.mp listed
  obtain ⟨declaration, found, -⟩ := Option.map_eq_some_iff.mp (filed package simple entry)
  simp [Catalog.isLive, found]

/-- A handle that is not well filed is listed. -/
theorem mem_handles_of_not_isWellFiled (misfiled : ¬ catalog.IsWellFiled handle) :
    handle ∈ catalog.allPackages.flatMap Package.handles := by
  simp only [IsWellFiled, not_forall] at misfiled
  obtain ⟨package, simple, entry, -⟩ := misfiled
  exact mem_handles_iff_exists_lists.mpr ⟨package, simple, entry⟩

/-- Files depend on the entries and the present names of one handle. -/
theorem isWellFiled_congr {later : Catalog}
    (lists : ∀ package simple, later.Lists package simple handle ↔
      catalog.Lists package simple handle)
    (names : later.names? handle = catalog.names? handle) :
    later.IsWellFiled handle ↔ catalog.IsWellFiled handle := by
  simp only [IsWellFiled, lists, names]

/-- An added package changes nothing about how a handle is filed. -/
theorem isWellFiled_of_addPackage {name : String}
    (added : catalog.addPackage name = .ok larger) :
    larger.IsWellFiled handle ↔ catalog.IsWellFiled handle := by
  obtain ⟨arena, lists⟩ := addPackage_lists added
  apply isWellFiled_congr fun package simple => lists package simple handle
  simp only [names?, declaration?, arena]

/-- A new entry changes nothing about how the old handles are filed. -/
theorem Enters.isWellFiled_iff {declaration : Declaration}
    (enters : catalog.Enters package declaration larger) (old : handle ≠ catalog.nextHandle) :
    larger.IsWellFiled handle ↔ catalog.IsWellFiled handle := by
  apply isWellFiled_congr
  · intro other simple
    rw [enters.lists]
    exact or_iff_left fun entry => old entry.2
  · rw [enters.names, if_neg old]

/-- What comes in is filed under its own name. -/
theorem Enters.isWellFiled {declaration : Declaration}
    (enters : catalog.Enters package declaration larger)
    (fresh : catalog.nextHandle ∉ catalog.allPackages.flatMap Package.handles)
    (filed : catalog.IsWellFiled handle) : larger.IsWellFiled handle := by
  by_cases new : handle = catalog.nextHandle
  · subst new
    intro other simple entry
    rcases (enters.lists _ _ _).mp entry with before | ⟨same, -⟩
    · exact absurd (mem_handles_iff_exists_lists.mpr ⟨_, _, before⟩) fresh
    · rw [enters.names, if_pos rfl, same]
  · exact (enters.isWellFiled_iff new).mpr filed

/-- A given handle that is not well filed stays so when another one comes in. -/
theorem Enters.not_isWellFiled {declaration : Declaration}
    (enters : catalog.Enters package declaration larger)
    (misfiled : handle.index < catalog.arena.size ∧ ¬ catalog.IsWellFiled handle) :
    handle.index < larger.arena.size ∧ ¬ larger.IsWellFiled handle := by
  obtain ⟨given, misfiled⟩ := misfiled
  have old : handle ≠ catalog.nextHandle := by
    rintro rfl
    exact Nat.lt_irrefl _ given
  rw [enters.isWellFiled_iff old, enters.size]
  exact ⟨Nat.lt_succ_of_lt given, misfiled⟩

/-- A removal leaves the files as they are: it erases every entry of a well filed handle, and it
leaves one of any other. -/
theorem isWellFiled_remove :
    (catalog.remove other).IsWellFiled handle ↔ catalog.IsWellFiled handle := by
  by_cases same : handle = other
  · subst same
    have nameless : (catalog.remove handle).names? handle = none := by
      rw [names?, declaration?_remove, if_pos rfl, Option.map_none]
    simp [IsWellFiled, lists_remove, nameless]
  · apply isWellFiled_congr
    · intro package simple
      rw [lists_remove]
      exact and_iff_left fun erased => same erased.1
    · rw [names?, declaration?_remove, if_neg same, names?]

/-- A change of a declaration that keeps its name leaves the files as they are. -/
theorem isWellFiled_update {change : Declaration → Declaration}
    (named : ∀ declaration, catalog.declaration? other = some declaration →
      declaration.SameName (change declaration)) :
    (catalog.update other change).IsWellFiled handle ↔ catalog.IsWellFiled handle := by
  apply isWellFiled_congr
  · intro package simple
    simp only [Lists, allPackages, packages_update, registry_update]
  · rw [names?, declaration?_update]
    split
    next same =>
      subst same
      cases found : catalog.declaration? handle with
      | none => simp [names?, found]
      | some declaration =>
          obtain ⟨sameName, samePackage⟩ := named declaration found
          simp [names?, found, sameName, samePackage]
    next => rfl

/-! ### Files in a history -/

/-- A handle that is well filed, or that is still to be given, stays so without a renaming. -/
theorem isWellFiled_persists (handle : Handle) :
    Persists (fun catalog => catalog.IsSeparated ∧ catalog.IsWellFiled handle) (fun _ => True)
      Declaration.SameName where
  standard := fun _ _ => trivial
  fills := fun _ _ _ => ⟨rfl, rfl⟩
  addPackage := fun holds added =>
    ⟨holds.1.addPackage added, (isWellFiled_of_addPackage added).mpr holds.2⟩
  declare := fun holds _ added =>
    ⟨holds.1.declare added,
      (enters_of_declare added).isWellFiled holds.1.nextHandle_not_mem holds.2⟩
  register := fun holds _ added =>
    ⟨holds.1.register added,
      (enters_of_register added).isWellFiled holds.1.nextHandle_not_mem holds.2⟩
  remove := fun other holds => ⟨holds.1.remove other, isWellFiled_remove.mpr holds.2⟩
  update := fun other change holds named =>
    ⟨IsSeparated.persists.update other change holds.1 fun _ _ => trivial,
      (isWellFiled_update named).mpr holds.2⟩

/-- A given handle that is not well filed stays so without a renaming. -/
theorem not_isWellFiled_persists (handle : Handle) :
    Persists (fun catalog => handle.index < catalog.arena.size ∧ ¬ catalog.IsWellFiled handle)
      (fun _ => True) Declaration.SameName where
  standard := fun _ _ => trivial
  fills := fun _ _ _ => ⟨rfl, rfl⟩
  addPackage := by
    intro catalog larger name holds added
    rw [isWellFiled_of_addPackage added]
    exact ⟨(addPackage_lists added).1 ▸ holds.1, holds.2⟩
  declare := fun holds _ added => (enters_of_declare added).not_isWellFiled holds
  register := fun holds _ added => (enters_of_register added).not_isWellFiled holds
  remove := by
    intro catalog other holds
    rw [size_remove, isWellFiled_remove]
    exact holds
  update := by
    intro catalog other change holds named
    rw [size_update, isWellFiled_update named]
    exact holds

/-! ### Entries without a declaration -/

/-- A catalog lists live handles when no entry has outlived its declaration. -/
def ListsLive (catalog : Catalog) : Prop :=
  ∀ handle ∈ catalog.allPackages.flatMap Package.handles, catalog.isLive handle = true

/-- What a command takes away is well filed when the command begins. -/
def RemovesWellFiled (catalog : Catalog) (command : Command) : Prop :=
  ∀ handle, catalog.isLive handle = true →
    (catalog.perform command).catalog.isLive handle = false → catalog.IsWellFiled handle

/-- A history removes under present names when each of its commands does, the removals of its
resolutions included. -/
def RemovesAllWellFiled (catalog : Catalog) : List Command → Prop
  | [] => True
  | command :: rest =>
      catalog.RemovesWellFiled command ∧
        (catalog.perform command).catalog.RemovesAllWellFiled rest

/-- An update keeps every handle as live as it was. -/
theorem isLive_update (catalog : Catalog) (handle : Handle)
    (change : Declaration → Declaration) (other : Handle) :
    (catalog.update handle change).isLive other = catalog.isLive other := by
  rw [isLive, declaration?_update, isLive]
  split
  next same => rw [same, Option.isSome_map]
  next => rfl

/-- An edit touches neither the entries nor what is live. -/
theorem listsLive_update (catalog : Catalog) (handle : Handle)
    (change : Declaration → Declaration) :
    (catalog.update handle change).ListsLive ↔ catalog.ListsLive := by
  simp only [ListsLive, allPackages, packages_update, registry_update, isLive_update]

/-- A command that renames nothing leaves an entry without its declaration exactly when there was
one before or when it takes away a declaration that was not well filed. -/
theorem IsSeparated.listsLive_perform_of_named (separated : catalog.IsSeparated)
    {command : Command} (named : command.EditsWithin Declaration.SameName) :
    (catalog.perform command).catalog.ListsLive ↔
      catalog.ListsLive ∧ catalog.RemovesWellFiled command := by
  have anything : command.InsertsWithin fun _ => True := by
    cases command <;> exact trivial
  -- no command without a renaming changes the files of a given handle, in neither direction
  have filed : ∀ handle, catalog.IsWellFiled handle →
      (catalog.perform command).catalog.IsWellFiled handle := fun handle filed =>
    ((isWellFiled_persists handle).perform ⟨separated, filed⟩ anything named).2
  have misfiled : ∀ handle, ¬ catalog.IsWellFiled handle →
      ¬ (catalog.perform command).catalog.IsWellFiled handle := fun handle misfiled =>
    ((not_isWellFiled_persists handle).perform
      ⟨separated.given handle (mem_handles_of_not_isWellFiled misfiled), misfiled⟩
      anything named).2
  constructor
  · intro listsLive
    have liveAfter : ∀ handle, ¬ catalog.IsWellFiled handle →
        (catalog.perform command).catalog.isLive handle = true := fun handle stays =>
      listsLive handle (mem_handles_of_not_isWellFiled (misfiled handle stays))
    refine ⟨fun handle listed => ?_, fun handle _ dead => ?_⟩
    · by_contra dead
      have stays : ¬ catalog.IsWellFiled handle := fun filed => dead (filed.isLive listed)
      have stillDead := (GrowsInto.performAll catalog [command]).emptied handle
        (separated.given handle listed) (Option.not_isSome_iff_eq_none.mp dead)
      exact Option.not_isSome_iff_eq_none.mpr stillDead (liveAfter handle stays)
    · by_contra stays
      rw [liveAfter handle stays] at dead
      cases dead
  · rintro ⟨listsLive, removes⟩ handle listed
    by_cases filedBefore : catalog.IsWellFiled handle
    · exact (filed handle filedBefore).isLive listed
    · by_contra dead
      have liveBefore := listsLive handle (mem_handles_of_not_isWellFiled filedBefore)
      exact filedBefore (removes handle liveBefore (Bool.eq_false_iff.mpr dead))

/-- One command keeps the listed handles live exactly when it removes what is well filed. -/
theorem IsSeparated.listsLive_perform (separated : catalog.IsSeparated) (command : Command) :
    (catalog.perform command).catalog.ListsLive ↔
      catalog.ListsLive ∧ catalog.RemovesWellFiled command := by
  cases command with
  | edit handle change =>
      -- an edit may rename, but it removes nothing
      have removes : catalog.RemovesWellFiled (.edit handle change) := by
        intro other live dead
        rw [perform, isLive_update, live] at dead
        cases dead
      rw [perform, listsLive_update]
      exact (and_iff_left removes).symm
  | addPackage | declare | register | installStandard | remove | visit | resolve =>
      exact separated.listsLive_perform_of_named trivial

/-- A history does so exactly when all of its commands do, by induction over them. -/
theorem IsSeparated.listsLive_performAll (separated : catalog.IsSeparated)
    (commands : List Command) :
    (catalog.performAll commands).ListsLive ↔
      catalog.ListsLive ∧ catalog.RemovesAllWellFiled commands := by
  induction commands generalizing catalog with
  | nil => exact (and_iff_left trivial).symm
  | cons command rest inductionHypothesis =>
      have later : (catalog.perform command).catalog.IsSeparated :=
        IsSeparated.persists.perform separated (by cases command <;> exact trivial)
          (by cases command <;> simp [Command.EditsWithin])
      rw [performAll, inductionHypothesis later, separated.listsLive_perform, and_assoc,
        RemovesAllWellFiled]

/-! ### Names after one removal -/

/-- A handle is filed once when all of its entries stand under one name in one package. -/
def IsFiledOnce (catalog : Catalog) (handle : Handle) : Prop :=
  ∀ package simple other otherSimple, catalog.Lists package simple handle →
    catalog.Lists other otherSimple handle → (package, simple) = (other, otherSimple)

/-- A handle that is filed once is filed once in fewer entries. -/
theorem IsFiledOnce.mono (once : catalog.IsFiledOnce handle)
    (lists : ∀ package simple, larger.Lists package simple handle →
      catalog.Lists package simple handle) : larger.IsFiledOnce handle :=
  fun _ _ _ _ first second => once _ _ _ _ (lists _ _ first) (lists _ _ second)

/-- A new handle gets one entry, and the others get none. -/
theorem Enters.isFiledOnce {declaration : Declaration}
    (enters : catalog.Enters package declaration larger)
    (fresh : catalog.nextHandle ∉ catalog.allPackages.flatMap Package.handles)
    (once : catalog.IsFiledOnce handle) : larger.IsFiledOnce handle := by
  by_cases new : handle = catalog.nextHandle
  · subst new
    have only : ∀ other simple, larger.Lists other simple catalog.nextHandle →
        (package, declaration.name) = (other, simple) := by
      intro other simple entry
      rcases (enters.lists _ _ _).mp entry with before | ⟨same, -⟩
      · exact absurd (mem_handles_iff_exists_lists.mpr ⟨_, _, before⟩) fresh
      · exact same
    intro first simple second otherSimple firstEntry secondEntry
    exact (only _ _ firstEntry).symm.trans (only _ _ secondEntry)
  · exact once.mono fun other simple entry =>
      ((enters.lists _ _ _).mp entry).resolve_right fun new' => new new'.2

/-- No command files a handle for a second time. -/
theorem isFiledOnce_persists (handle : Handle) :
    Persists (fun catalog => catalog.IsSeparated ∧ catalog.IsFiledOnce handle) (fun _ => True)
      fun _ _ => True where
  standard := fun _ _ => trivial
  fills := fun _ _ _ => trivial
  addPackage := fun holds added =>
    ⟨holds.1.addPackage added,
      holds.2.mono fun package simple => ((addPackage_lists added).2 package simple handle).mp⟩
  declare := fun holds _ added =>
    ⟨holds.1.declare added,
      (enters_of_declare added).isFiledOnce holds.1.nextHandle_not_mem holds.2⟩
  register := fun holds _ added =>
    ⟨holds.1.register added,
      (enters_of_register added).isFiledOnce holds.1.nextHandle_not_mem holds.2⟩
  remove := fun other holds =>
    ⟨holds.1.remove other, holds.2.mono fun _ _ entry => (lists_remove.mp entry).1⟩
  update := fun other change holds named =>
    ⟨IsSeparated.persists.update other change holds.1 named,
      holds.2.mono fun package simple entry => by
        simpa only [Lists, allPackages, packages_update, registry_update] using entry⟩

/-- Every history files each handle once, also when declarations are renamed. -/
theorem performAll_isFiledOnce (commands : List Command) (handle : Handle) :
    (Catalog.empty.performAll commands).IsFiledOnce handle := by
  have empty : Catalog.empty.IsFiledOnce handle := by
    rintro _ _ _ _ ⟨_, impossible, -⟩
    cases impossible
  refine ((isFiledOnce_persists handle).performAll ⟨empty_isSeparated, empty⟩ ?_).2
  intro command _
  cases command <;> simp [Command.EditsWithin]

/-- A removal under a name without an entry leaves all names as they are. -/
theorem lookup?_remove_of_not_lists
    (absent : ∀ package simple, catalog.names? handle = some (package, simple) →
      ¬ catalog.Lists package simple handle) (qualified : String) :
    (catalog.remove handle).lookup? qualified = catalog.lookup? qualified := by
  unfold remove
  split
  next => rfl
  next declaration found =>
    have unlisted : ∀ listed ∈ catalog.allPackages, listed.name = declaration.package →
        (declaration.name, handle) ∉ listed.entries := fun listed member sameName entry =>
      absent declaration.package declaration.name (by simp [names?, found])
        ⟨listed, member, sameName, entry⟩
    simp only [lookup?]
    rw [eraseEntry_eq_self fun listed member => unlisted listed (List.mem_append_left _ member),
      eraseEntry_eq_self fun listed member => unlisted listed (List.mem_append_right _ member)]

/-- A removed handle is found under its old name exactly when it was not well filed. -/
theorem IsFiledOnce.lookup?_remove_iff (once : catalog.IsFiledOnce handle) {qualified : String}
    (found : catalog.lookup? qualified = some handle) :
    (catalog.remove handle).lookup? qualified = some handle ↔ ¬ catalog.IsWellFiled handle := by
  constructor
  · intro stale filed
    have listed := mem_handles_iff_exists_lists.mpr (exists_lists_of_lookup? stale)
    have live := (isWellFiled_remove.mpr filed).isLive listed
    rw [isLive_remove] at live
    simp at live
  · intro misfiled
    rw [lookup?_remove_of_not_lists, found]
    intro package simple present entry
    apply misfiled
    intro other otherSimple otherEntry
    rw [present, once _ _ _ _ entry otherEntry]

end TypeGraph.Catalog
