import TypeGraph.Resolution.Failure
import TypeGraph.Resolution.Scope
import TypeGraph.Signature.Reader

/-!
This file turns signatures into references. A name is a type variable in scope, a wildcard, a
primitive type or a declaration, whichever applies first.
-/

namespace TypeGraph

/-- A lookup finds the declaration of a qualified name. -/
abbrev Lookup := String → Option Handle

namespace Signature

variable (lookup : Lookup) (scopes : List Scope)

mutual

/-- The first failure from left to right decides, and parts that do not count are not looked at. -/
def resolve : Signature → Except Failure Reference
  | ⟨name, arguments, rank, bound, constraints⟩ =>
      match Scope.owner? scopes name with
      | some owner => .ok (.arrayOf (.typeVariable name owner) rank)
      | none =>
          if name = wildcardName then
            match resolveAll constraints with
            | .ok bounds => .ok (.arrayOf (.wildcard bound bounds) rank)
            | .error failure => .error failure
          else
            match Primitive.ofKeyword? name with
            | some primitive =>
                if arguments.isSome then .error (.genericPrimitive name)
                else .ok (.arrayOf (.primitive primitive) rank)
            | none =>
                match lookup name with
                | none => .error (.notFound name)
                | some target =>
                    match resolveArguments arguments with
                    | .ok references => .ok (.declared target name references rank)
                    | .error failure => .error failure

/-- An absent argument list has no references. -/
def resolveArguments : Option (List Signature) → Except Failure (List Reference)
  | none => .ok []
  | some arguments => resolveAll arguments

/-- A list of signatures is resolved in order. -/
def resolveAll : List Signature → Except Failure (List Reference)
  | [] => .ok []
  | signature :: rest =>
      match resolve signature with
      | .error failure => .error failure
      | .ok reference =>
          match resolveAll rest with
          | .error failure => .error failure
          | .ok references => .ok (reference :: references)

end

end Signature

/-- A text is read as a signature and then resolved. -/
def resolveText (lookup : Lookup) (scopes : List Scope) (text : String) :
    Except Unresolved Reference :=
  match Signature.parse text with
  | .error malformed => .error ⟨text, .malformed malformed⟩
  | .ok signature =>
      match signature.resolve lookup scopes with
      | .error failure => .error ⟨text, failure⟩
      | .ok reference => .ok reference

end TypeGraph
