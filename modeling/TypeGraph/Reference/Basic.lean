import TypeGraph.Handle
import TypeGraph.Primitive
import TypeGraph.Signature.Basic

/-!
This file defines resolved references. A reference points at declarations by handle, so it stays a
plain value when a declaration is removed.
-/

namespace TypeGraph

/-- A type variable belongs to the declaration or to the method that introduces it.

The label of a method tells overloads apart. -/
inductive VariableOwner where
  | declaration (declaring : Handle)
  | method (declaring : Handle) (label : String)
deriving DecidableEq, Repr

/-- A reference is what a signature means once every name in it has been looked up. -/
inductive Reference where
  | primitive (kind : Primitive)
  | typeVariable (name : String) (owner : VariableOwner)
  | wildcard (bound : BoundKind) (bounds : List Reference)
  | array (element : Reference) (rank : Nat)
  | declared (target : Handle) (name : String) (arguments : List Reference) (rank : Nat)

namespace Reference

/-- An array of no dimensions is its element. -/
def arrayOf (element : Reference) (rank : Nat) : Reference :=
  if rank = 0 then element else .array element rank

/-- Dimensions are counted through nested arrays down to the innermost element. -/
def arrayRank : Reference → Nat
  | .array element rank => rank + element.arrayRank
  | .declared _ _ _ rank => rank
  | _ => 0

/-- The declaration of a reference is the one named by its innermost element. -/
def declaration? : Reference → Option Handle
  | .declared target _ _ _ => some target
  | .array element _ => element.declaration?
  | _ => none

mutual

/-- The targets are all declarations that a reference mentions, from left to right. -/
def targets : Reference → List Handle
  | .primitive _ => []
  | .typeVariable _ _ => []
  | .wildcard _ bounds => targetsOfAll bounds
  | .array element _ => element.targets
  | .declared target _ arguments _ => target :: targetsOfAll arguments

/-- The targets of a list are those of its members in order. -/
def targetsOfAll : List Reference → List Handle
  | [] => []
  | reference :: rest => reference.targets ++ targetsOfAll rest

end

/-- A property of all references follows when it passes from the parts to the whole. -/
theorem induct {motive : Reference → Prop}
    (primitive : ∀ kind, motive (.primitive kind))
    (typeVariable : ∀ name owner, motive (.typeVariable name owner))
    (wildcard : ∀ bound bounds, (∀ reference ∈ bounds, motive reference) →
      motive (.wildcard bound bounds))
    (array : ∀ element rank, motive element → motive (.array element rank))
    (declared : ∀ target name arguments rank, (∀ reference ∈ arguments, motive reference) →
      motive (.declared target name arguments rank)) :
    ∀ reference, motive reference := by
  intro reference
  refine @Reference.rec motive (fun references => ∀ reference ∈ references, motive reference)
    primitive typeVariable wildcard array declared ?nil ?cons reference
  case nil => intro reference member; cases member
  case cons =>
    intro head tail fromHead fromTail reference member
    rcases List.mem_cons.mp member with rfl | later
    · exact fromHead
    · exact fromTail reference later

mutual

/-- Equality of references is decided node by node. -/
def decideEq : (first second : Reference) → Decidable (first = second)
  | .primitive kind, .primitive kind' =>
      if same : kind = kind' then isTrue (by rw [same])
      else isFalse fun equal => same (by injection equal)
  | .typeVariable name owner, .typeVariable name' owner' =>
      if same : name = name' ∧ owner = owner' then isTrue (by rw [same.1, same.2])
      else isFalse fun equal => same (by injection equal; constructor <;> assumption)
  | .wildcard bound bounds, .wildcard bound' bounds' =>
      match decEq bound bound', decideEqList bounds bounds' with
      | isTrue sameBound, isTrue sameBounds => isTrue (by rw [sameBound, sameBounds])
      | isFalse different, _ => isFalse fun equal => different (by injection equal)
      | _, isFalse different => isFalse fun equal => different (by injection equal)
  | .array element rank, .array element' rank' =>
      match decideEq element element', decEq rank rank' with
      | isTrue sameElement, isTrue sameRank => isTrue (by rw [sameElement, sameRank])
      | isFalse different, _ => isFalse fun equal => different (by injection equal)
      | _, isFalse different => isFalse fun equal => different (by injection equal)
  | .declared target name arguments rank, .declared target' name' arguments' rank' =>
      match decEq target target', decEq name name', decideEqList arguments arguments',
        decEq rank rank' with
      | isTrue sameTarget, isTrue sameName, isTrue sameArguments, isTrue sameRank =>
          isTrue (by rw [sameTarget, sameName, sameArguments, sameRank])
      | isFalse different, _, _, _ => isFalse fun equal => different (by injection equal)
      | _, isFalse different, _, _ => isFalse fun equal => different (by injection equal)
      | _, _, isFalse different, _ => isFalse fun equal => different (by injection equal)
      | _, _, _, isFalse different => isFalse fun equal => different (by injection equal)
  | .primitive _, .typeVariable _ _ | .primitive _, .wildcard _ _ | .primitive _, .array _ _
  | .primitive _, .declared _ _ _ _ | .typeVariable _ _, .primitive _
  | .typeVariable _ _, .wildcard _ _ | .typeVariable _ _, .array _ _
  | .typeVariable _ _, .declared _ _ _ _ | .wildcard _ _, .primitive _
  | .wildcard _ _, .typeVariable _ _ | .wildcard _ _, .array _ _
  | .wildcard _ _, .declared _ _ _ _ | .array _ _, .primitive _ | .array _ _, .typeVariable _ _
  | .array _ _, .wildcard _ _ | .array _ _, .declared _ _ _ _ | .declared _ _ _ _, .primitive _
  | .declared _ _ _ _, .typeVariable _ _ | .declared _ _ _ _, .wildcard _ _
  | .declared _ _ _ _, .array _ _ => isFalse nofun

/-- Lists of references are equal when they agree at every place. -/
def decideEqList : (first second : List Reference) → Decidable (first = second)
  | [], [] => isTrue rfl
  | [], _ :: _ => isFalse nofun
  | _ :: _, [] => isFalse nofun
  | head :: tail, head' :: tail' =>
      match decideEq head head', decideEqList tail tail' with
      | isTrue sameHead, isTrue sameTail => isTrue (by rw [sameHead, sameTail])
      | isFalse different, _ => isFalse fun equal => different (by injection equal)
      | _, isFalse different => isFalse fun equal => different (by injection equal)

end

instance : DecidableEq Reference := decideEq

end Reference

end TypeGraph
