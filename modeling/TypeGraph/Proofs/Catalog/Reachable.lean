import TypeGraph.Proofs.Catalog.Insertion
import TypeGraph.Proofs.Catalog.Persistence
import TypeGraph.Proofs.Catalog.Removal
import TypeGraph.Proofs.Resolution.Tidiness

/-!
This file defines the catalogs that a program can reach by declaring, removing and resolving, and
shows that each of them is indexed and tidy. Names change in no reachable catalog.
-/

namespace TypeGraph

namespace Catalog

/-- A catalog is reachable through declarations, removals, visits and whole resolutions. -/
inductive Reachable : Catalog → Prop where
  | empty : Reachable .empty
  | addPackage {catalog larger : Catalog} (before : Reachable catalog) (name : String)
      (added : catalog.addPackage name = .ok larger) : Reachable larger
  | declare {catalog larger : Catalog} {handle : Handle} (before : Reachable catalog)
      (package : String) (declaration : Declaration) (fresh : declaration.IsFresh)
      (added : catalog.declare package declaration = .ok (handle, larger)) : Reachable larger
  | register {catalog larger : Catalog} {handle : Handle} (before : Reachable catalog)
      (package : String) (declaration : Declaration) (fresh : declaration.IsFresh)
      (added : catalog.register package declaration = .ok (handle, larger)) : Reachable larger
  | installStandard {catalog : Catalog} (before : Reachable catalog) :
      Reachable catalog.installStandard.catalog
  | remove {catalog : Catalog} (before : Reachable catalog) (handle : Handle) :
      Reachable (catalog.remove handle)
  | visit {catalog : Catalog} (before : Reachable catalog) (policy : InterfacePolicy)
      (handle : Handle) : Reachable (catalog.visit policy handle).catalog
  | resolve {catalog : Catalog} (before : Reachable catalog) (options : Options) :
      Reachable (catalog.resolve options).catalog

/-- The standard declarations are fresh. -/
theorem isFresh_of_mem_table {standard : StandardDeclaration}
    (member : standard ∈ StandardDeclaration.table) : standard.declaration.IsFresh := by
  have unresolved : ∀ standard ∈ StandardDeclaration.table,
      ∀ slot ∈ standard.declaration.slots, slot.reference = none := by decide
  have unmarked : ∀ standard ∈ StandardDeclaration.table,
      ∀ bound ∈ standard.declaration.bounds, bound.unresolvable = false := by decide
  exact ⟨unresolved standard member, unmarked standard member⟩

/-- What persists from the empty catalog holds of every reachable catalog. -/
theorem Reachable.of_persists {motive : Catalog → Prop}
    {allowed : Declaration → Declaration → Prop}
    (persists : Persists motive Declaration.IsFresh allowed) (empty : motive .empty)
    {catalog : Catalog} (reachable : catalog.Reachable) : motive catalog := by
  induction reachable with
  | empty => exact empty
  | addPackage _ _ added holds => exact persists.addPackage holds added
  | declare _ _ _ fresh added holds => exact persists.declare holds fresh added
  | register _ _ _ fresh added holds => exact persists.register holds fresh added
  | installStandard _ holds => exact persists.installStandard holds
  | remove _ handle holds => exact persists.remove handle holds
  | visit _ policy handle holds => exact persists.visit holds policy handle
  | resolve _ options holds => exact persists.resolve holds options

/-- Packages and arena keep agreeing as long as no declaration is renamed. -/
theorem Indexed.persists {insertable : Declaration → Prop}
    (standard : ∀ standard ∈ StandardDeclaration.table, insertable standard.declaration) :
    Persists Indexed insertable Declaration.SameName where
  standard := standard
  fills := fun _ _ _ => ⟨rfl, rfl⟩
  addPackage := fun indexed added => indexed.addPackage added
  declare := fun indexed _ added => indexed.declare added
  register := fun indexed _ added => indexed.register added
  remove := fun handle indexed => indexed.remove handle
  update := fun handle _ indexed same => indexed.update handle same

/-- Whatever is inserted, packages and arena keep agreeing. -/
theorem Indexed.persists_of_sameName :
    Persists Indexed (fun _ => True) Declaration.SameName :=
  Indexed.persists fun _ _ => trivial

theorem Indexed.filled {catalog : Catalog} (indexed : catalog.Indexed) {handle : Handle}
    {declaration : Declaration} (found : catalog.declaration? handle = some declaration) :
    (catalog.filled handle declaration).Indexed :=
  Indexed.persists_of_sameName.filled indexed handle found

/-- Every reachable catalog is indexed. -/
theorem Reachable.indexed {catalog : Catalog} (reachable : catalog.Reachable) : catalog.Indexed :=
  reachable.of_persists (Indexed.persists fun _ => isFresh_of_mem_table) empty_indexed

/-- Every declaration of the catalog is tidy. -/
def IsTidy (catalog : Catalog) : Prop :=
  ∀ handle declaration, catalog.declaration? handle = some declaration → declaration.IsTidy

theorem IsTidy.allot {catalog : Catalog} (tidy : catalog.IsTidy) (packages registry : List Package)
    (package : String) {declaration : Declaration} (inserted : declaration.IsTidy) :
    IsTidy ⟨packages, registry, catalog.allot package declaration⟩ := by
  intro handle other found
  rw [declaration?_allot] at found
  split at found
  next =>
    cases found
    exact ⟨inserted.marked, inserted.unsettled⟩
  next => exact tidy handle other found

/-- A declaration that is declared or registered only takes a place of the arena. -/
theorem exists_allot_of_declare {catalog larger : Catalog} {package : String}
    {declaration : Declaration} {handle : Handle}
    (added : catalog.declare package declaration = .ok (handle, larger)) :
    ∃ packages registry, larger = ⟨packages, registry, catalog.allot package declaration⟩ := by
  unfold Catalog.declare at added
  split at added
  next => cases added
  next =>
    split at added
    next => cases added
    next =>
      cases added
      exact ⟨_, _, rfl⟩

theorem exists_allot_of_register {catalog larger : Catalog} {package : String}
    {declaration : Declaration} {handle : Handle}
    (added : catalog.register package declaration = .ok (handle, larger)) :
    ∃ registry, larger = ⟨catalog.packages, registry, catalog.allot package declaration⟩ := by
  unfold Catalog.register at added
  dsimp only at added
  split at added
  next => cases added
  next =>
    cases added
    exact ⟨_, rfl⟩

theorem IsTidy.remove {catalog : Catalog} (tidy : catalog.IsTidy) (handle : Handle) :
    (catalog.remove handle).IsTidy := by
  intro other declaration found
  rw [declaration?_remove] at found
  split at found
  next => cases found
  next => exact tidy other declaration found

/-- Catalogs stay tidy when only tidy declarations come in. -/
theorem IsTidy.persists {insertable : Declaration → Prop}
    (standard : ∀ standard ∈ StandardDeclaration.table, insertable standard.declaration)
    (inserts : ∀ declaration, insertable declaration → declaration.IsTidy) :
    Persists IsTidy insertable fun before after => before.IsTidy → after.IsTidy where
  standard := standard
  fills := fun lookup handle _ tidy => tidy.fill lookup handle
  addPackage := by
    intro catalog larger name tidy added
    unfold Catalog.addPackage at added
    split at added
    next => cases added
    next =>
      cases added
      exact tidy
  declare := by
    intro catalog larger handle package declaration tidy insertable added
    obtain ⟨packages, registry, rfl⟩ := exists_allot_of_declare added
    exact tidy.allot packages registry package (inserts declaration insertable)
  register := by
    intro catalog larger handle package declaration tidy insertable added
    obtain ⟨registry, rfl⟩ := exists_allot_of_register added
    exact tidy.allot catalog.packages registry package (inserts declaration insertable)
  remove := fun handle tidy => tidy.remove handle
  update := by
    intro catalog handle change tidy keeps other declaration found
    rw [declaration?_update] at found
    split at found
    next =>
      obtain ⟨before, isBefore, rfl⟩ := Option.map_eq_some_iff.mp found
      exact keeps before isBefore (tidy handle before isBefore)
    next => exact tidy other declaration found

theorem empty_isTidy : Catalog.empty.IsTidy := by
  intro handle declaration found
  simp [declaration?, empty] at found

/-- Every reachable catalog is tidy. -/
theorem Reachable.isTidy {catalog : Catalog} (reachable : catalog.Reachable) : catalog.IsTidy :=
  reachable.of_persists (IsTidy.persists (fun _ => isFresh_of_mem_table) fun _ fresh => fresh.isTidy)
    empty_isTidy

/-- Registering leaves the declarations of the packages alone. -/
theorem Indexed.declarations_register {catalog larger : Catalog} (indexed : catalog.Indexed)
    {package : String} {declaration : Declaration} {handle : Handle}
    (added : catalog.register package declaration = .ok (handle, larger)) :
    larger.declarations = catalog.declarations := by
  obtain ⟨registry, rfl⟩ := exists_allot_of_register added
  apply List.filterMap_congr
  intro other listed
  have listedAmongAll : other ∈ catalog.allPackages.flatMap Package.handles := by
    rw [allPackages, List.flatMap_append]
    exact List.mem_append_left _ listed
  rw [declaration?_allot, if_neg]
  intro same
  subst same
  exact Nat.lt_irrefl _ (indexed.index_lt listedAmongAll)

theorem Indexed.declarations_registerAll {catalog : Catalog} (indexed : catalog.Indexed)
    (table : List StandardDeclaration) :
    (catalog.registerAll table).catalog.declarations = catalog.declarations := by
  induction table generalizing catalog with
  | nil => rfl
  | cons standard rest inductionHypothesis =>
      unfold Catalog.registerAll
      split
      next handle larger added =>
        rw [inductionHypothesis (indexed.register added), indexed.declarations_register added]
      next => rfl

/-- Preparation leaves the declarations of the packages as they are. -/
theorem Indexed.declarations_prepare {catalog : Catalog} (indexed : catalog.Indexed)
    (options : Options) : (catalog.prepare options).1.declarations = catalog.declarations := by
  rw [fst_prepare]
  split
  next => exact indexed.declarations_registerAll _
  next => rfl

/-- One class of this catalog lacks its superclass, and the other one has a field of its type. -/
def withLoss : Catalog :=
  ⟨[⟨"p", [("Kept", ⟨0⟩), ("Lost", ⟨1⟩)]⟩], [],
    #[some ⟨"Kept", "p", .ofClass none, [], [],
        [.field ⟨"first", .ofText "p.Kept[]"⟩, .field ⟨"second", .ofText "p.Lost"⟩]⟩,
      some ⟨"Lost", "p", .ofClass (some (.ofText "q.Missing")), [], [], []⟩]⟩

/-- The catalog with a loss is reached by one package and two declarations. -/
theorem withLoss_reachable : withLoss.Reachable := by
  let kept := ((Declaration.newClass "Kept").withMember (.field ⟨"first", .ofText "p.Kept[]"⟩))
    |>.withMember (.field ⟨"second", .ofText "p.Lost"⟩)
  let lost := (Declaration.newClass "Lost").withSupertype "q.Missing"
  have withPackage : Reachable ⟨[⟨"p", []⟩], [], #[]⟩ := .addPackage .empty "p" rfl
  have withKept : Reachable ⟨[⟨"p", [("Kept", ⟨0⟩)]⟩], [], #[some { kept with package := "p" }]⟩ :=
    withPackage.declare "p" kept ⟨by decide, by decide⟩ rfl
  exact withKept.declare "p" lost ⟨by decide, by decide⟩ rfl

end Catalog

end TypeGraph
