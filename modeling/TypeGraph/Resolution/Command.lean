import TypeGraph.Resolution.Run

/-!
This file lists the commands that act on a catalog in place. A refused command says why, and the
catalog that it leaves is part of its outcome.
-/

namespace TypeGraph

/-- A command grows, shrinks, resolves or edits a catalog. -/
inductive Command where
  | addPackage (name : String)
  | declare (package : String) (declaration : Declaration)
  | register (package : String) (declaration : Declaration)
  | installStandard
  | remove (handle : Handle)
  | visit (policy : InterfacePolicy) (handle : Handle)
  | resolve (options : Options)
  | edit (handle : Handle) (change : Declaration → Declaration)

/-- An outcome is the catalog that a command leaves and the refusal, if there was one. -/
structure Outcome where
  catalog : Catalog
  refusal : Option Refusal

/-- A refusal that comes before any change leaves the catalog as it was. -/
def Outcome.ofExcept {A : Type} (before : Catalog) (read : A → Catalog) :
    Except Refusal A → Outcome
  | .ok value => ⟨read value, none⟩
  | .error refusal => ⟨before, some refusal⟩

/-- The insertions are the commands that put one package or one declaration into a catalog. -/
def Command.isInsertion : Command → Bool
  | .addPackage _ => true
  | .declare _ _ => true
  | .register _ _ => true
  | _ => false

namespace Catalog

/-- A registration opens its registry package before it looks for the name there. -/
def registerInPlace (catalog : Catalog) (package : String) (declaration : Declaration) :
    Outcome :=
  let opened := { catalog with registry := catalog.registryWith package }
  let taken := opened.registry.any fun candidate =>
    candidate.name == package && (candidate.get? declaration.name).isSome
  if taken then ⟨opened, some (.duplicateDeclaration package declaration.name)⟩
  else
    ⟨{ opened with
        registry := insertEntry opened.registry package declaration.name opened.nextHandle
        arena := opened.allot package declaration },
      none⟩

/-- Commands are performed in place. -/
def perform (catalog : Catalog) : Command → Outcome
  | .addPackage name => .ofExcept catalog id (catalog.addPackage name)
  | .declare package declaration =>
      .ofExcept catalog Prod.snd (catalog.declare package declaration)
  | .register package declaration => catalog.registerInPlace package declaration
  | .installStandard => ⟨catalog.installStandard.catalog, catalog.installStandard.refusal⟩
  | .remove handle => ⟨catalog.remove handle, none⟩
  | .visit policy handle => ⟨(catalog.visit policy handle).catalog, none⟩
  | .resolve options => ⟨(catalog.resolve options).catalog, none⟩
  | .edit handle change => ⟨catalog.update handle change, none⟩

/-- A history is performed command by command, whether or not some are refused. -/
def performAll (catalog : Catalog) : List Command → Catalog
  | [] => catalog
  | command :: rest => (catalog.perform command).catalog.performAll rest

/-- A package that is opened for a registration has no entries, so it refuses nothing. -/
theorem registerInPlace_eq (catalog : Catalog) (package : String) (declaration : Declaration) :
    catalog.registerInPlace package declaration =
      .ofExcept catalog Prod.snd (catalog.register package declaration) := by
  by_cases known : (catalog.registry.any fun candidate => candidate.name == package) = true
  · have same : catalog.registryWith package = catalog.registry := by
      rw [registryWith, if_pos known]
    simp only [registerInPlace, register, same]
    split <;> rfl
  · have opened : catalog.registryWith package = catalog.registry ++ [.empty package] := by
      rw [registryWith, if_neg known]
    have untaken : (catalog.registry.any fun candidate =>
        candidate.name == package && (candidate.get? declaration.name).isSome) = false := by
      rw [List.any_eq_false]
      intro candidate member taken
      apply known
      rw [List.any_eq_true]
      exact ⟨candidate, member, (Bool.and_eq_true_iff.mp taken).1⟩
    have free : ((Package.empty package).get? declaration.name).isSome = false := rfl
    simp [registerInPlace, register, opened, untaken, free, Outcome.ofExcept, nextHandle, allot]

/-- A refused insertion leaves the catalog exactly as it was. -/
theorem perform_of_refusal {catalog : Catalog} {command : Command} {refusal : Refusal}
    (inserts : command.isInsertion = true)
    (refused : (catalog.perform command).refusal = some refusal) :
    (catalog.perform command).catalog = catalog := by
  have unchanged : ∀ {A : Type} (read : A → Catalog) (result : Except Refusal A),
      (Outcome.ofExcept catalog read result).refusal = some refusal →
        (Outcome.ofExcept catalog read result).catalog = catalog := by
    intro A read result refused
    cases result with
    | ok value => cases refused
    | error _ => rfl
  cases command with
  | addPackage name => exact unchanged _ _ refused
  | declare package declaration => exact unchanged _ _ refused
  | register package declaration =>
      simp only [perform, registerInPlace_eq] at refused ⊢
      exact unchanged _ _ refused
  | installStandard => cases inserts
  | remove => cases inserts
  | visit => cases inserts
  | resolve => cases inserts
  | edit => cases inserts

end Catalog

end TypeGraph
