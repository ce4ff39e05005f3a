import TypeGraph.Reference.Basic

/-!
This file defines slots, the places of a declaration that hold a signature and its resolution, and
the type parameters whose bounds are such slots.
-/

namespace TypeGraph

/-- A slot keeps the text as it was declared next to the reference found for it. -/
structure Slot where
  text : String
  reference : Option Reference
deriving DecidableEq

/-- A declared text starts out without a reference. -/
def Slot.ofText (text : String) : Slot :=
  ⟨text, none⟩

/-- A slot is resolved when it holds a reference. -/
def Slot.isResolved (slot : Slot) : Bool :=
  slot.reference.isSome

/-- A bound that failed to resolve once is marked and never tried again. -/
structure Bound where
  slot : Slot
  unresolvable : Bool
deriving DecidableEq

/-- A declared bound is not marked. -/
def Bound.ofText (text : String) : Bound :=
  ⟨.ofText text, false⟩

/-- A type parameter names a type variable and lists its bounds. -/
structure TypeParameter where
  name : String
  bounds : List Bound
deriving DecidableEq

/-- A declared type parameter has unresolved bounds. -/
def TypeParameter.ofTexts (name : String) (bounds : List String) : TypeParameter :=
  ⟨name, bounds.map .ofText⟩

/-- The bound slots of a list of type parameters stand in declaration order. -/
def TypeParameter.slots (parameters : List TypeParameter) : List Slot :=
  parameters.flatMap fun parameter => parameter.bounds.map Bound.slot

end TypeGraph
