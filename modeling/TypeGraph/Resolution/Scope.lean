import TypeGraph.Reference.Basic

/-!
This file defines the scopes in which type variables are looked up.
-/

namespace TypeGraph

/-- A scope holds the names of the type parameters that one owner introduces. -/
structure Scope where
  owner : VariableOwner
  names : List String
deriving DecidableEq, Repr

/-- The innermost scope comes first, and the first scope with the name owns the variable. -/
def Scope.owner? (scopes : List Scope) (name : String) : Option VariableOwner :=
  (scopes.find? fun scope => scope.names.contains name).map Scope.owner

end TypeGraph
