import TypeGraph.Declaration.Basic

/-!
This file defines packages, which index handles by simple name in the order of declaring.
-/

namespace TypeGraph

/-- A package lists the handles of its declarations under their simple names. -/
structure Package where
  name : String
  entries : List (String × Handle)
deriving DecidableEq

namespace Package

/-- A new package has no entries. -/
def empty (name : String) : Package :=
  ⟨name, []⟩

/-- A package without entries is empty. -/
def isEmpty (package : Package) : Bool :=
  package.entries.isEmpty

/-- The size of a package counts its entries. -/
def size (package : Package) : Nat :=
  package.entries.length

/-- The handles of a package stand in the order of declaring. -/
def handles (package : Package) : List Handle :=
  package.entries.map Prod.snd

/-- An entry is found by its simple name. -/
def get? (package : Package) (simple : String) : Option Handle :=
  (package.entries.find? fun entry => entry.1 == simple).map Prod.snd

/-- A qualified name belongs to a package when the package name and a dot come before the rest. -/
def simpleName? (package : Package) (qualified : String) : Option String :=
  if package.name = "" then some qualified
  else ((package.name.toList ++ ['.']).isPrefixOf? qualified.toList).map String.ofList

/-- A qualified name is looked up by what it leaves after the package name. -/
def lookup? (package : Package) (qualified : String) : Option Handle :=
  (package.simpleName? qualified).bind package.get?

/-- New entries come last. -/
def insert (package : Package) (simple : String) (handle : Handle) : Package :=
  { package with entries := package.entries ++ [(simple, handle)] }

/-- An entry is erased only while its name still leads to the given handle. -/
def erase (package : Package) (simple : String) (handle : Handle) : Package :=
  { package with entries := package.entries.filter fun entry => entry ≠ (simple, handle) }

end Package

end TypeGraph
