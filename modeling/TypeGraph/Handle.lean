/-!
This file defines the handles by which resolved references point at declarations.
-/

namespace TypeGraph

/-- A handle is the place of a declaration in the order of declaring. -/
structure Handle where
  index : Nat
deriving DecidableEq, Repr, Inhabited

end TypeGraph
