import TypeGraph.Reference.Basic

/-!
This file writes references as signatures.
-/

namespace TypeGraph.Reference

/-- Every array dimension is written as a pair of brackets. -/
def dimensions (rank : Nat) : String :=
  String.join (List.replicate rank "[]")

mutual

/-- The text of a reference is a signature with qualified names and no other choices of spelling. -/
def render : Reference → String
  | .primitive kind => kind.keyword
  | .typeVariable name _ => name
  | .wildcard bound bounds =>
      match bound.keyword? with
      | none => Signature.wildcardName
      | some keyword =>
          Signature.wildcardName ++ " " ++ keyword ++ " " ++ " & ".intercalate (renderAll bounds)
  | .array element rank => element.render ++ dimensions rank
  | .declared _ name [] rank => name ++ dimensions rank
  | .declared _ name (first :: rest) rank =>
      name ++ "<" ++ ", ".intercalate (first.render :: renderAll rest) ++ ">" ++ dimensions rank

/-- The texts of a list are those of its members in order. -/
def renderAll : List Reference → List String
  | [] => []
  | reference :: rest => reference.render :: renderAll rest

end

end TypeGraph.Reference
