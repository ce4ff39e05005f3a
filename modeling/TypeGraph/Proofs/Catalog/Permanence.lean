import TypeGraph.Proofs.Catalog.Separation

/-!
This file shows that handles are permanent. No history returns a handle twice or brings back what
it leads to, and a removal leaves every other place and every other entry exactly as it was.
-/

namespace TypeGraph.Catalog

variable {catalog before after : Catalog} {handle : Handle}

/-! ### Places through a history -/

/-- A catalog grows into another one when no place is taken away and the empty ones stay empty. -/
structure GrowsInto (before after : Catalog) : Prop where
  size : before.arena.size ≤ after.arena.size
  emptied : ∀ handle : Handle, handle.index < before.arena.size →
    before.declaration? handle = none → after.declaration? handle = none

namespace GrowsInto

theorem refl (catalog : Catalog) : catalog.GrowsInto catalog :=
  ⟨Nat.le_refl _, fun _ _ empty => empty⟩

/-- A new declaration takes a place of its own, so it fills none of the empty ones. -/
theorem allot (grows : before.GrowsInto catalog) (packages registry : List Package)
    (package : String) (declaration : Declaration) :
    before.GrowsInto ⟨packages, registry, catalog.allot package declaration⟩ where
  size := by
    rw [Catalog.allot, Array.size_push]
    exact Nat.le_succ_of_le grows.size
  emptied := by
    intro handle old empty
    have taken : handle ≠ catalog.nextHandle := by
      rintro rfl
      exact Nat.not_lt.mpr grows.size old
    rw [declaration?_allot, if_neg taken]
    exact grows.emptied handle old empty

theorem remove (grows : before.GrowsInto catalog) (handle : Handle) :
    before.GrowsInto (catalog.remove handle) where
  size := by
    rw [size_remove]
    exact grows.size
  emptied := by
    intro other old empty
    rw [declaration?_remove]
    split
    next => rfl
    next => exact grows.emptied other old empty

theorem update (grows : before.GrowsInto catalog) (handle : Handle)
    (change : Declaration → Declaration) : before.GrowsInto (catalog.update handle change) where
  size := by
    rw [size_update]
    exact grows.size
  emptied := by
    intro other old empty
    have stillEmpty := grows.emptied other old empty
    rw [declaration?_update]
    split
    next same => rw [← same, stillEmpty, Option.map_none]
    next => exact stillEmpty

/-- Catalogs grow under every insertion, every removal and every change of a declaration. -/
theorem persists (before : Catalog) :
    Persists before.GrowsInto (fun _ => True) fun _ _ => True where
  standard := fun _ _ => trivial
  fills := fun _ _ _ => trivial
  addPackage := by
    intro catalog larger name grows added
    unfold Catalog.addPackage at added
    split at added
    next => cases added
    next =>
      cases added
      exact ⟨grows.size, grows.emptied⟩
  declare := by
    intro catalog larger handle package declaration grows _ added
    obtain ⟨packages, registry, rfl⟩ := exists_allot_of_declare added
    exact grows.allot packages registry package declaration
  register := by
    intro catalog larger handle package declaration grows _ added
    obtain ⟨registry, rfl⟩ := exists_allot_of_register added
    exact grows.allot catalog.packages registry package declaration
  remove := fun handle grows => grows.remove handle
  update := fun handle change grows _ => grows.update handle change

/-- Every history grows the catalog that it starts from. -/
theorem performAll (catalog : Catalog) (commands : List Command) :
    catalog.GrowsInto (catalog.performAll commands) := by
  apply (persists catalog).performAll (refl catalog)
  intro command _
  cases command <;> simp [Command.EditsWithin]

/-- A reference that dangles at a given handle dangles ever after. -/
theorem dangles (grows : before.GrowsInto after) {reference : Reference}
    (given : ∀ target ∈ reference.targets, target.index < before.arena.size)
    (dangling : before.dangles reference = true) : after.dangles reference = true := by
  obtain ⟨target, mentioned, dead⟩ := List.any_eq_true.mp dangling
  refine List.any_eq_true.mpr ⟨target, mentioned, ?_⟩
  have empty : before.declaration? target = none := by simpa [isLive] using dead
  simp [isLive, grows.emptied target (given target mentioned) empty]

end GrowsInto

/-! ### Returned handles -/

/-- A command returns the handle of the declaration that it declares or registers. -/
def returned? (catalog : Catalog) : Command → Option Handle
  | .declare package declaration =>
      (catalog.declare package declaration).toOption.map Prod.fst
  | .register package declaration =>
      (catalog.register package declaration).toOption.map Prod.fst
  | _ => none

/-- The handles that a history returns stand in the order of its commands. -/
def returnedAll (catalog : Catalog) : List Command → List Handle
  | [] => []
  | command :: rest =>
      (catalog.returned? command).toList ++ (catalog.perform command).catalog.returnedAll rest

theorem eq_nextHandle_of_declare {larger : Catalog} {package : String} {declaration : Declaration}
    (added : catalog.declare package declaration = .ok (handle, larger)) :
    handle = catalog.nextHandle := by
  unfold Catalog.declare at added
  split at added
  next => cases added
  next =>
    split at added
    next => cases added
    next =>
      cases added
      rfl

theorem eq_nextHandle_of_register {larger : Catalog} {package : String}
    {declaration : Declaration} (added : catalog.register package declaration = .ok (handle, larger)) :
    handle = catalog.nextHandle := by
  unfold Catalog.register at added
  dsimp only at added
  split at added
  next => cases added
  next =>
    cases added
    rfl

/-- The handle that a command returns is the first one that was not given before, and it is given
from then on. -/
theorem index_of_returned? {command : Command}
    (returned : catalog.returned? command = some handle) :
    handle.index = catalog.arena.size ∧
      (catalog.perform command).catalog.arena.size = catalog.arena.size + 1 := by
  cases command with
  | declare package declaration =>
      cases result : catalog.declare package declaration with
      | error refusal => simp [returned?, result, Except.toOption] at returned
      | ok added =>
          obtain ⟨given, larger⟩ := added
          obtain rfl : given = handle := by
            simpa [returned?, result, Except.toOption] using returned
          obtain ⟨packages, registry, rfl⟩ := exists_allot_of_declare result
          rw [perform, result, eq_nextHandle_of_declare result]
          exact ⟨rfl, Array.size_push _⟩
  | register package declaration =>
      cases result : catalog.register package declaration with
      | error refusal => simp [returned?, result, Except.toOption] at returned
      | ok added =>
          obtain ⟨given, larger⟩ := added
          obtain rfl : given = handle := by
            simpa [returned?, result, Except.toOption] using returned
          obtain ⟨registry, rfl⟩ := exists_allot_of_register result
          rw [perform, registerInPlace_eq, result, eq_nextHandle_of_register result]
          exact ⟨rfl, Array.size_push _⟩
  | addPackage | installStandard | remove | visit | resolve | edit => cases returned

/-- A history returns no handle twice, none that was given before it and none that it does not
give. -/
theorem returnedAll_nodup (catalog : Catalog) (commands : List Command) :
    (catalog.returnedAll commands).Nodup ∧
      ∀ handle ∈ catalog.returnedAll commands, catalog.arena.size ≤ handle.index ∧
        handle.index < (catalog.performAll commands).arena.size := by
  induction commands generalizing catalog with
  | nil => exact ⟨List.nodup_nil, by simp [returnedAll]⟩
  | cons command rest inductionHypothesis =>
      obtain ⟨once, given⟩ := inductionHypothesis (catalog.perform command).catalog
      have larger := (GrowsInto.performAll catalog [command]).size
      have largest := (GrowsInto.performAll (catalog.perform command).catalog rest).size
      have givenLater : ∀ handle ∈ (catalog.perform command).catalog.returnedAll rest,
          catalog.arena.size ≤ handle.index ∧
            handle.index < (catalog.performAll (command :: rest)).arena.size :=
        fun handle later => (given handle later).imp_left (Nat.le_trans larger)
      unfold returnedAll
      cases returned : catalog.returned? command with
      | none => exact ⟨once, givenLater⟩
      | some first =>
          obtain ⟨next, grown⟩ := index_of_returned? returned
          have fresh : first ∉ (catalog.perform command).catalog.returnedAll rest := by
            intro again
            have above := (given first again).1
            omega
          refine ⟨List.nodup_cons.mpr ⟨fresh, once⟩, ?_⟩
          refine List.forall_mem_cons.mpr ⟨⟨Nat.le_of_eq next.symm, ?_⟩, givenLater⟩
          rw [performAll]
          omega

/-! ### Removals -/

/-- A removal of one handle empties its place. It leaves every other place exactly as it was, and in
every package the entries of all other handles. -/
structure RemovesOnly (before : Catalog) (handle : Handle) (after : Catalog) : Prop where
  emptied : after.declaration? handle = none
  size : after.arena.size = before.arena.size
  places : ∀ index, index ≠ handle.index → after.arena[index]? = before.arena[index]?
  packages : after.packages.map (Package.keep fun other => other ≠ handle) =
    before.packages.map (Package.keep fun other => other ≠ handle)
  registry : after.registry.map (Package.keep fun other => other ≠ handle) =
    before.registry.map (Package.keep fun other => other ≠ handle)

/-- The entries of other handles are kept under whatever name an entry is erased. -/
theorem map_keep_eraseEntry (packages : List Package) (package simple : String)
    (handle : Handle) :
    (eraseEntry packages package simple handle).map (Package.keep fun other => other ≠ handle) =
      packages.map (Package.keep fun other => other ≠ handle) := by
  rw [eraseEntry, List.map_map]
  apply List.map_congr_left
  intro candidate _
  rw [Function.comp_apply]
  split
  next =>
    simp only [Package.keep, Package.erase, List.filter_filter]
    congr 1
    apply List.filter_congr
    intro entry _
    by_cases same : entry.2 = handle
    · simp [same]
    · have different : entry ≠ (simple, handle) := fun equal => same (congrArg Prod.snd equal)
      simp [same, different]
  next => rfl

theorem remove_removesOnly (catalog : Catalog) (handle : Handle) :
    catalog.RemovesOnly handle (catalog.remove handle) where
  emptied := by rw [declaration?_remove, if_pos rfl]
  size := size_remove catalog handle
  places := by
    intro index different
    unfold Catalog.remove
    split
    next => rfl
    next => exact Array.getElem?_setIfInBounds_ne (Ne.symm different)
  packages := by
    unfold Catalog.remove
    split
    next => rfl
    next => exact map_keep_eraseEntry _ _ _ _
  registry := by
    unfold Catalog.remove
    split
    next => rfl
    next => exact map_keep_eraseEntry _ _ _ _

/-! ### Histories -/

/-- Handles are permanent in a history that goes on after a catalog was reached. No handle is
returned twice, an empty place of a given handle stays empty, and so a reference to given handles
that dangles dangles ever after. A removal at this catalog concerns one handle only. -/
structure KeepsHandles (earlier later : List Command) (before after : Catalog) : Prop where
  once : (Catalog.empty.returnedAll (earlier ++ later)).Nodup
  given : ∀ handle ∈ Catalog.empty.returnedAll earlier, handle.index < before.arena.size
  emptied : ∀ handle : Handle, handle.index < before.arena.size →
    before.declaration? handle = none → after.declaration? handle = none
  dangling : ∀ reference : Reference,
    (∀ target ∈ reference.targets, target.index < before.arena.size) →
      before.dangles reference = true → after.dangles reference = true
  removal : ∀ handle, before.RemovesOnly handle (before.remove handle)

/-- Whatever a history declares, removes, resolves and edits, its handles are permanent. -/
theorem performAll_keepsHandles (earlier later : List Command) :
    KeepsHandles earlier later (Catalog.empty.performAll earlier)
      ((Catalog.empty.performAll earlier).performAll later) where
  once := (returnedAll_nodup Catalog.empty (earlier ++ later)).1
  given := fun handle returned => ((returnedAll_nodup Catalog.empty earlier).2 handle returned).2
  emptied := (GrowsInto.performAll _ later).emptied
  dangling := fun _ given dangling => (GrowsInto.performAll _ later).dangles given dangling
  removal := fun handle => remove_removesOnly _ handle

/-- A class that was renamed like another one leaves both entries behind when it is removed, and a
class that is declared afterwards gets a handle of its own. -/
example :
    let earlier : List Command :=
      [.addPackage "p", .declare "p" (.newClass "A"), .declare "p" (.newClass "B"),
        .edit ⟨0⟩ fun declaration => { declaration with name := "B" }]
    let later : List Command := [.remove ⟨0⟩, .declare "p" (.newClass "C")]
    Catalog.empty.returnedAll (earlier ++ later) = [⟨0⟩, ⟨1⟩, ⟨2⟩] ∧
      (Catalog.empty.performAll (earlier ++ later)).packages =
        [⟨"p", [("A", ⟨0⟩), ("B", ⟨1⟩), ("C", ⟨2⟩)]⟩] := by
  decide +kernel

end TypeGraph.Catalog
