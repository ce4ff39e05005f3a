/-!
This file defines signatures, the trees that type texts denote before any name is looked up.
-/

namespace TypeGraph

/-- A wildcard is unbounded, bounded from above or bounded from below. -/
inductive BoundKind where
  | unbounded
  | upper
  | lower
deriving DecidableEq, Repr

/-- The two bounded kinds are introduced by a keyword. -/
def BoundKind.keyword? : BoundKind → Option String
  | .unbounded => none
  | .upper => some "extends"
  | .lower => some "super"

/-- A word introduces a bound when it is one of the two keywords. -/
def BoundKind.ofKeyword? (word : String) : Option BoundKind :=
  if word = "extends" then some .upper
  else if word = "super" then some .lower
  else none

theorem BoundKind.ofKeyword?_eq_some_iff {word : String} {kind : BoundKind} :
    BoundKind.ofKeyword? word = some kind ↔ kind.keyword? = some word := by
  cases kind <;> simp only [BoundKind.ofKeyword?, BoundKind.keyword?] <;> grind

/-- A signature names a type, with its arguments, array rank and wildcard bounds.

Arguments are absent for a name without an argument list. -/
structure Signature where
  name : String
  arguments : Option (List Signature)
  rank : Nat
  bound : BoundKind
  constraints : List Signature

namespace Signature

/-- The name of every wildcard is a question mark. -/
def wildcardName : String := "?"

/-- A named signature has no wildcard bounds. -/
def named (name : String) (arguments : Option (List Signature)) (rank : Nat) : Signature :=
  ⟨name, arguments, rank, .unbounded, []⟩

/-- A wildcard has neither arguments nor array dimensions. -/
def wildcard (bound : BoundKind) (constraints : List Signature) : Signature :=
  ⟨wildcardName, none, 0, bound, constraints⟩

/-- A signature is a wildcard by its name alone. -/
def isWildcard (signature : Signature) : Bool :=
  signature.name == wildcardName

/-- An absent argument list holds no arguments. -/
def argumentList (signature : Signature) : List Signature :=
  signature.arguments.getD []

/-- A property of all signatures follows when it passes from the parts to the whole. -/
theorem induct {motive : Signature → Prop}
    (node : ∀ name arguments rank bound constraints,
      (∀ list, arguments = some list → ∀ argument ∈ list, motive argument) →
      (∀ constraint ∈ constraints, motive constraint) →
      motive ⟨name, arguments, rank, bound, constraints⟩) :
    ∀ signature, motive signature := by
  intro signature
  refine @Signature.rec motive
    (fun arguments => ∀ list, arguments = some list → ∀ argument ∈ list, motive argument)
    (fun list => ∀ argument ∈ list, motive argument)
    ?node ?absent ?present ?nil ?cons signature
  case node =>
    intro name arguments rank bound constraints fromArguments fromConstraints
    exact node name arguments rank bound constraints fromArguments fromConstraints
  case absent => intro list equal; cases equal
  case present =>
    intro list fromList other equal
    cases equal
    exact fromList
  case nil => intro argument member; cases member
  case cons =>
    intro head tail fromHead fromTail argument member
    rcases List.mem_cons.mp member with rfl | later
    · exact fromHead
    · exact fromTail argument later

mutual

/-- Equality of signatures is decided node by node. -/
def decideEq : (first second : Signature) → Decidable (first = second)
  | ⟨name, arguments, rank, bound, constraints⟩, ⟨name', arguments', rank', bound', constraints'⟩ =>
      match decEq name name', decideEqArguments arguments arguments', decEq rank rank',
        decEq bound bound', decideEqList constraints constraints' with
      | isTrue sameName, isTrue sameArguments, isTrue sameRank, isTrue sameBound,
        isTrue sameConstraints =>
          isTrue (by rw [sameName, sameArguments, sameRank, sameBound, sameConstraints])
      | isFalse different, _, _, _, _ => isFalse fun equal => different (by injection equal)
      | _, isFalse different, _, _, _ => isFalse fun equal => different (by injection equal)
      | _, _, isFalse different, _, _ => isFalse fun equal => different (by injection equal)
      | _, _, _, isFalse different, _ => isFalse fun equal => different (by injection equal)
      | _, _, _, _, isFalse different => isFalse fun equal => different (by injection equal)

/-- Argument lists are equal when both are absent or both hold equal signatures. -/
def decideEqArguments : (first second : Option (List Signature)) → Decidable (first = second)
  | none, none => isTrue rfl
  | none, some _ => isFalse (by simp)
  | some _, none => isFalse (by simp)
  | some first, some second =>
      match decideEqList first second with
      | isTrue same => isTrue (by rw [same])
      | isFalse different => isFalse fun equal => different (by injection equal)

/-- Lists of signatures are equal when they agree at every place. -/
def decideEqList : (first second : List Signature) → Decidable (first = second)
  | [], [] => isTrue rfl
  | [], _ :: _ => isFalse (by simp)
  | _ :: _, [] => isFalse (by simp)
  | head :: tail, head' :: tail' =>
      match decideEq head head', decideEqList tail tail' with
      | isTrue sameHead, isTrue sameTail => isTrue (by rw [sameHead, sameTail])
      | isFalse different, _ => isFalse fun equal => different (by injection equal)
      | _, isFalse different => isFalse fun equal => different (by injection equal)

end

instance : DecidableEq Signature := decideEq

end Signature

end TypeGraph
