import TypeGraph.Catalog.Basic

/-!
This file lists the standard declarations that descriptions mention without declaring them, and
registers them in a catalog.
-/

namespace TypeGraph

/-- A standard declaration names the package in which it is registered. -/
structure StandardDeclaration where
  package : String
  declaration : Declaration

/-- A generic declaration gets one unbounded type parameter. -/
def StandardDeclaration.generic (standard : StandardDeclaration) (parameter : String) :
    StandardDeclaration :=
  { standard with declaration := standard.declaration.withTypeParameter ⟨parameter, []⟩ }

/-- The standard declarations are registered in this order. -/
def StandardDeclaration.table : List StandardDeclaration :=
  [⟨"java.lang", .newClass "Object"⟩,
   ⟨"java.lang", .newClass "String"⟩,
   generic ⟨"java.lang", .newClass "Class"⟩ "T",
   generic ⟨"java.lang", .newClass "Enum"⟩ "E",
   ⟨"java.lang", .newClass "Number"⟩,
   ⟨"java.lang", .newClass "Throwable"⟩,
   ⟨"java.lang", .newClass "Exception"⟩,
   ⟨"java.lang", .newClass "RuntimeException"⟩,
   generic ⟨"java.lang", .newInterface "Comparable"⟩ "T",
   generic ⟨"java.lang", .newInterface "Iterable"⟩ "T",
   ⟨"java.lang", .newInterface "CharSequence"⟩,
   ⟨"java.lang", .newInterface "Cloneable"⟩,
   ⟨"java.io", .newInterface "Serializable"⟩]

/-- An installation ends with a catalog and with the refusal that stopped it, if any. -/
structure Installation where
  catalog : Catalog
  refusal : Option Refusal

/-- Declarations are registered one after another until one is refused. -/
def Catalog.registerAll (catalog : Catalog) : List StandardDeclaration → Installation
  | [] => ⟨catalog, none⟩
  | standard :: rest =>
      match catalog.register standard.package standard.declaration with
      | .ok (_, larger) => larger.registerAll rest
      | .error refusal => ⟨catalog, some refusal⟩

/-- The whole table is installed, or what fits before the first refusal. -/
def Catalog.installStandard (catalog : Catalog) : Installation :=
  catalog.registerAll StandardDeclaration.table

end TypeGraph
