import TypeGraph.Proofs.Catalog.Reachable
import TypeGraph.Resolution.Command

/-!
This file carries properties of catalogs through whole histories of commands. No history without a
renaming breaks the agreement of packages and arena, whatever it removes, refuses or resolves.
-/

namespace TypeGraph

/-- The edits of a command stay within a relation of declarations before and after. -/
def Command.EditsWithin (allowed : Declaration → Declaration → Prop) : Command → Prop
  | .edit _ change => ∀ declaration, allowed declaration (change declaration)
  | _ => True

/-- What a command inserts stays within the declarations that may be inserted. -/
def Command.InsertsWithin (insertable : Declaration → Prop) : Command → Prop
  | .declare _ declaration => insertable declaration
  | .register _ declaration => insertable declaration
  | _ => True

namespace Catalog

namespace Persists

variable {motive : Catalog → Prop} {insertable : Declaration → Prop}
  {allowed : Declaration → Declaration → Prop} {catalog : Catalog}

/-- A command keeps a property that persists, also when it is refused. -/
theorem perform (persists : Persists motive insertable allowed) (holds : motive catalog)
    {command : Command} (inserts : command.InsertsWithin insertable)
    (edits : command.EditsWithin allowed) : motive (catalog.perform command).catalog := by
  have accepted : ∀ {A : Type} (read : A → Catalog) (result : Except Refusal A),
      (∀ value, result = .ok value → motive (read value)) →
        motive (Outcome.ofExcept catalog read result).catalog := by
    intro A read result success
    cases result with
    | ok value => exact success value rfl
    | error refusal => exact holds
  cases command with
  | addPackage name => exact accepted _ _ fun _ added => persists.addPackage holds added
  | declare package declaration =>
      exact accepted _ _ fun _ added => persists.declare holds inserts added
  | register package declaration =>
      rw [Catalog.perform, registerInPlace_eq]
      exact accepted _ _ fun _ added => persists.register holds inserts added
  | installStandard => exact persists.installStandard holds
  | remove handle => exact persists.remove handle holds
  | visit policy handle => exact persists.visit holds policy handle
  | resolve options => exact persists.resolve holds options
  | edit handle change =>
      exact persists.update handle change holds fun declaration _ => edits declaration

/-- A history keeps a property that persists when it inserts only what may be inserted. -/
theorem performAll_of_inserts (persists : Persists motive insertable allowed)
    (holds : motive catalog) {commands : List Command}
    (inserts : ∀ command ∈ commands, command.InsertsWithin insertable)
    (edits : ∀ command ∈ commands, command.EditsWithin allowed) :
    motive (catalog.performAll commands) := by
  induction commands generalizing catalog with
  | nil => exact holds
  | cons command rest inductionHypothesis =>
      obtain ⟨firstInserts, laterInserts⟩ := List.forall_mem_cons.mp inserts
      obtain ⟨firstEdits, laterEdits⟩ := List.forall_mem_cons.mp edits
      exact inductionHypothesis (persists.perform holds firstInserts firstEdits) laterInserts
        laterEdits

/-- A history keeps a property that persists under all insertions. -/
theorem performAll (persists : Persists motive (fun _ => True) allowed) (holds : motive catalog)
    {commands : List Command} (edits : ∀ command ∈ commands, command.EditsWithin allowed) :
    motive (catalog.performAll commands) := by
  refine persists.performAll_of_inserts holds (fun command _ => ?_) edits
  cases command <;> exact trivial

end Persists

/-- Every history without a renaming leaves an indexed catalog. -/
theorem performAll_indexed {commands : List Command}
    (named : ∀ command ∈ commands, command.EditsWithin Declaration.SameName) :
    (Catalog.empty.performAll commands).Indexed :=
  Indexed.persists_of_sameName.performAll empty_indexed named

/-- A package of the registry is found by its exact name. -/
def registryPackage? (catalog : Catalog) (name : String) : Option Package :=
  catalog.registry.find? fun package => package.name == name

/-- In a well-represented catalog names lead to packages, entries to live declarations of their
name and package in the order of declaring, and every live declaration has one entry in all. -/
structure IsRepresented (catalog : Catalog) : Prop where
  packages : ∀ package ∈ catalog.packages, catalog.package? package.name = some package
  registry : ∀ package ∈ catalog.registry, catalog.registryPackage? package.name = some package
  indexed : ∀ package ∈ catalog.packages ++ catalog.registry, package.IndexedIn catalog
  once : ∀ handle, catalog.isLive handle = true →
    (catalog.packages.flatMap Package.handles).count handle +
      (catalog.registry.flatMap Package.handles).count handle = 1
  counted : catalog.entryCount = catalog.declarations.length

theorem find?_name_eq_some {packages : List Package} (distinct : (packages.map Package.name).Nodup)
    {package : Package} (member : package ∈ packages) :
    (packages.find? fun candidate => candidate.name == package.name) = some package := by
  cases found : packages.find? fun candidate => candidate.name == package.name with
  | none =>
      have different := List.find?_eq_none.mp found package member
      exact absurd (beq_self_eq_true package.name) different
  | some other =>
      have sameName : other.name = package.name := by simpa using List.find?_some found
      rw [List.inj_on_of_nodup_map distinct (List.mem_of_find?_eq_some found) member sameName]

/-- An indexed catalog counts its live declarations by its entries. -/
theorem Indexed.entryCount_eq {catalog : Catalog} (indexed : catalog.Indexed) :
    catalog.entryCount = catalog.declarations.length := by
  rw [entryCount, declarations, List.length_filterMap_eq_countP, eq_comm, List.countP_eq_length]
  intro handle listed
  rw [Option.isSome_map]
  exact indexed.isLive_of_mem_handles listed

theorem Indexed.isRepresented {catalog : Catalog} (indexed : catalog.Indexed) :
    catalog.IsRepresented where
  packages := fun _ member => find?_name_eq_some indexed.packageNames member
  registry := fun _ member => find?_name_eq_some indexed.registryNames member
  indexed := indexed.indexed
  once := by
    intro handle live
    rw [← List.count_append, ← List.flatMap_append]
    exact List.count_eq_one_of_mem indexed.once (indexed.complete handle live)
  counted := indexed.entryCount_eq

/-- Every history without a renaming leaves a well-represented catalog, which stays exactly as it
is whenever an insertion is refused. -/
theorem performAll_isRepresented {commands : List Command}
    (named : ∀ command ∈ commands, command.EditsWithin Declaration.SameName) :
    (Catalog.empty.performAll commands).IsRepresented ∧
      ∀ command : Command, command.isInsertion = true → ∀ refusal,
        ((Catalog.empty.performAll commands).perform command).refusal = some refusal →
          ((Catalog.empty.performAll commands).perform command).catalog =
            Catalog.empty.performAll commands := by
  have persists : Persists Indexed (fun _ => True) Declaration.SameName :=
    Indexed.persists fun _ _ => trivial
  have indexed := persists.performAll empty_indexed named
  exact ⟨indexed.isRepresented, fun _ inserts _ refused => perform_of_refusal inserts refused⟩

/-- In this history a name is removed and declared again, an insertion into packages and one into
the registry are refused, a member is added to a live declaration, and a resolution removes one. -/
def eventful : List Command :=
  [.addPackage "p", .declare "p" (.newClass "A"), .declare "p" (.newInterface "A"),
    .register "q" (.newClass "B"), .register "q" (.newClass "B"),
    .declare "p" ((Declaration.newClass "C").withSupertype "q.Missing"), .remove ⟨0⟩,
    .declare "p" (.newInterface "A"),
    .edit ⟨3⟩ fun declaration => declaration.withMember (.field ⟨"b", .ofText "q.B"⟩),
    .resolve .standard]

/-- The eventful history renames nothing, so its catalog is well represented. -/
theorem performAll_isRepresented_eventful :
    (∀ command ∈ eventful, command.EditsWithin Declaration.SameName) ∧
      (Catalog.empty.performAll eventful).IsRepresented ∧
      ∀ command : Command, command.isInsertion = true → ∀ refusal,
        ((Catalog.empty.performAll eventful).perform command).refusal = some refusal →
          ((Catalog.empty.performAll eventful).perform command).catalog =
            Catalog.empty.performAll eventful := by
  have named : ∀ command ∈ eventful, command.EditsWithin Declaration.SameName := by
    simp [eventful, Command.EditsWithin, Declaration.SameName, Declaration.withMember]
  exact ⟨named, performAll_isRepresented named⟩

end Catalog

end TypeGraph
