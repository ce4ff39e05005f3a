import TypeGraph.Signature.Fault

/-!
This file lists the reasons for which a signature has no reference.
-/

namespace TypeGraph

/-- A signature is malformed, names nothing, or gives arguments to a primitive type. -/
inductive Failure where
  | malformed (reason : Signature.Malformed)
  | notFound (name : String)
  | genericPrimitive (name : String)
deriving DecidableEq, Repr

/-- The message states the reason in words. -/
def Failure.message : Failure → String
  | .malformed reason => reason.message
  | .notFound name => "Type '" ++ name ++ "' was not found."
  | .genericPrimitive name => "primitive type '" ++ name ++ "' cannot take generic arguments"

/-- An unresolved text is kept together with the reason. -/
structure Unresolved where
  text : String
  cause : Failure
deriving DecidableEq, Repr

end TypeGraph
