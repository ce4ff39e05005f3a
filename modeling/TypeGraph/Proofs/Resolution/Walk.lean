import TypeGraph.Proofs.Resolution.Signature

/-!
This file walks through a signature in the order in which its names are looked up. The walk visits a
node before its parts, and it goes only into those parts that count. A signature fails to resolve
when the walk visits a node that is at fault, and then the first such node gives the failure.
-/

namespace TypeGraph

/-! ### Kinds of names -/

/-- A name has an owner when some scope introduces it. -/
theorem Scope.isSome_owner? (scopes : List Scope) (name : String) :
    (Scope.owner? scopes name).isSome = scopes.any fun scope => scope.names.contains name := by
  rw [Scope.owner?, Option.isSome_map, List.isSome_find?]

/-- A name stands for a type variable, a wildcard, a primitive type or a declaration. -/
inductive NameKind where
  | typeVariable
  | wildcard
  | primitive
  | declared
deriving DecidableEq, Repr

namespace NameKind

/-- The first kind that applies counts, so a type parameter may go by the name of any other kind. -/
def of (scopes : List Scope) (name : String) : NameKind :=
  if scopes.any fun scope => scope.names.contains name then .typeVariable
  else if name = Signature.wildcardName then .wildcard
  else if (Primitive.ofKeyword? name).isSome then .primitive
  else .declared

variable {scopes : List Scope} {name : String}

/-- A name in scope denotes a type variable, even if it is a keyword. -/
theorem of_owned {owner : VariableOwner} (owned : Scope.owner? scopes name = some owner) :
    of scopes name = .typeVariable := by
  rw [of, ← Scope.isSome_owner?, owned]
  rfl

theorem of_wildcard (free : Scope.owner? scopes name = none)
    (wild : name = Signature.wildcardName) : of scopes name = .wildcard := by
  rw [of, ← Scope.isSome_owner?, free, if_neg (by simp), if_pos wild]

/-- A keyword that is not in scope denotes a primitive type. -/
theorem of_primitive (free : Scope.owner? scopes name = none)
    (tame : name ≠ Signature.wildcardName) {kind : Primitive}
    (keyword : Primitive.ofKeyword? name = some kind) : of scopes name = .primitive := by
  rw [of, ← Scope.isSome_owner?, free, if_neg (by simp), if_neg tame, keyword]
  rfl

/-- Every other name is looked up. -/
theorem of_declared (free : Scope.owner? scopes name = none)
    (tame : name ≠ Signature.wildcardName) (keyword : Primitive.ofKeyword? name = none) :
    of scopes name = .declared := by
  rw [of, ← Scope.isSome_owner?, free, if_neg (by simp), if_neg tame, keyword]
  rfl

end NameKind

namespace Signature

/-! ### Visited nodes -/

section Visited

variable (scopes : List Scope)

/-- The parts that count are the bounds of a wildcard and the arguments of a declaration. -/
def parts (signature : Signature) : List Signature :=
  match NameKind.of scopes signature.name with
  | .typeVariable => []
  | .wildcard => signature.constraints
  | .primitive => []
  | .declared => signature.argumentList

mutual

/-- The walk visits a node first and then the parts that count, from left to right. -/
def visited : Signature → List Signature
  | ⟨name, arguments, rank, bound, constraints⟩ =>
      ⟨name, arguments, rank, bound, constraints⟩ ::
        match NameKind.of scopes name with
        | .typeVariable => []
        | .wildcard => visitedAll constraints
        | .primitive => []
        | .declared => visitedArguments arguments

/-- There is nothing to visit in an absent argument list. -/
def visitedArguments : Option (List Signature) → List Signature
  | none => []
  | some arguments => visitedAll arguments

/-- The nodes of a list are visited signature by signature. -/
def visitedAll : List Signature → List Signature
  | [] => []
  | signature :: rest => visited signature ++ visitedAll rest

end

theorem visited_eq (signature : Signature) :
    signature.visited scopes = signature :: visitedAll scopes (signature.parts scopes) := by
  obtain ⟨name, arguments, rank, bound, constraints⟩ := signature
  rw [visited, parts]
  dsimp only
  cases NameKind.of scopes name with
  | typeVariable => rfl
  | wildcard => rfl
  | primitive => rfl
  | declared => cases arguments <;> rfl

/-- The visited nodes of a list are those of its members. -/
theorem mem_visitedAll_iff {signatures : List Signature} {node : Signature} :
    node ∈ visitedAll scopes signatures ↔
      ∃ signature ∈ signatures, node ∈ signature.visited scopes := by
  induction signatures with
  | nil => simp [visitedAll]
  | cons signature rest inductionHypothesis => simp [visitedAll, inductionHypothesis]

/-- A property of all signatures follows when it passes from the parts that count to the whole. -/
theorem induct_parts {motive : Signature → Prop}
    (node : ∀ signature, (∀ part ∈ signature.parts scopes, motive part) → motive signature)
    (signature : Signature) : motive signature := by
  induction signature using Signature.induct with
  | node name arguments rank bound constraints fromArguments fromConstraints =>
      apply node
      intro part counts
      unfold parts at counts
      dsimp only at counts
      split at counts
      next => cases counts
      next => exact fromConstraints part counts
      next => cases counts
      next =>
        obtain ⟨list, present, member⟩ := argumentList_mem counts
        exact fromArguments list present part member

end Visited

/-! ### The first node at fault -/

variable {lookup : Lookup} {scopes : List Scope}

/-- The head of a node is its name and whether an argument list follows. -/
def head (node : Signature) : String × Bool :=
  (node.name, node.arguments.isSome)

/-- A primitive type is at fault when it has an argument list, and a declaration when it is not
found. The parts of a node play no role. -/
def defect? (lookup : Lookup) (scopes : List Scope) : String × Bool → Option Failure
  | (name, applied) =>
      match NameKind.of scopes name with
      | .typeVariable => none
      | .wildcard => none
      | .primitive => if applied then some (.genericPrimitive name) else none
      | .declared => if (lookup name).isNone then some (.notFound name) else none

/-- A node is at fault in one of two ways. -/
theorem defect?_head_isSome_iff {node : Signature} :
    (defect? lookup scopes node.head).isSome = true ↔
      (NameKind.of scopes node.name = .primitive ∧ node.arguments.isSome = true) ∨
      (NameKind.of scopes node.name = .declared ∧ lookup node.name = none) := by
  unfold defect? head
  dsimp only
  cases NameKind.of scopes node.name with
  | typeVariable => simp
  | wildcard => simp
  | primitive => simp
  | declared => simp

/-- What went wrong, if anything did. -/
def failure? {A : Type} : Except Failure A → Option Failure
  | .ok _ => none
  | .error failure => some failure

theorem failure?_eq_some_iff {A : Type} {result : Except Failure A} {failure : Failure} :
    failure? result = some failure ↔ result = .error failure := by
  cases result <;> simp [failure?]

/-- A list of signatures fails like the first node at fault in it, if each signature does. -/
theorem failure?_resolveAll {signatures : List Signature}
    (each : ∀ signature ∈ signatures, failure? (signature.resolve lookup scopes) =
      ((signature.visited scopes).map head).findSome? (defect? lookup scopes)) :
    failure? (resolveAll lookup scopes signatures) =
      ((visitedAll scopes signatures).map head).findSome? (defect? lookup scopes) := by
  induction signatures with
  | nil => rfl
  | cons signature rest inductionHypothesis =>
      obtain ⟨first, others⟩ := List.forall_mem_cons.mp each
      rw [visitedAll, List.map_append, List.findSome?_append, ← first, ← inductionHypothesis others,
        resolveAll]
      cases signature.resolve lookup scopes with
      | error failure => rfl
      | ok reference =>
          cases resolveAll lookup scopes rest with
          | error failure => rfl
          | ok references => rfl

/-- A signature fails like the first node at fault in its walk. -/
theorem failure?_resolve (lookup : Lookup) (scopes : List Scope) (signature : Signature) :
    failure? (signature.resolve lookup scopes) =
      ((signature.visited scopes).map head).findSome? (defect? lookup scopes) := by
  induction signature using induct_parts scopes with
  | node signature inductionHypothesis =>
      have inside := failure?_resolveAll inductionHypothesis
      rw [visited_eq, List.map_cons, List.findSome?_cons, ← inside]
      obtain ⟨name, arguments, rank, bound, constraints⟩ := signature
      rw [resolve, head, defect?, parts]
      dsimp only
      -- A node that resolves by itself is not at fault, so what fails then is one of its parts.
      split
      next owner owned =>
        rw [NameKind.of_owned owned]
        rfl
      next free =>
        split
        next wild =>
          rw [NameKind.of_wildcard free wild]
          dsimp only
          cases resolveAll lookup scopes constraints <;> rfl
        next tame =>
          split
          next kind keyword =>
            rw [NameKind.of_primitive free tame keyword]
            cases arguments <;> rfl
          next keyword =>
            rw [NameKind.of_declared free tame keyword]
            dsimp only
            cases found : lookup name with
            | none => rfl
            | some target =>
                rw [resolveArguments_eq]
                dsimp only [argumentList]
                cases resolveAll lookup scopes (arguments.getD []) <;> rfl

/-- A signature fails to resolve exactly when its walk visits a primitive type with an argument list
or a declaration that is not found, and the failure is that of the first such node. It depends on
the heads of the visited nodes alone, so nothing that the walk passes by can cause it or hide it. -/
theorem resolve_failsLeftmost (lookup : Lookup) (scopes : List Scope) (signature : Signature) :
    ((∃ failure, signature.resolve lookup scopes = .error failure) ↔
      ∃ node ∈ signature.visited scopes,
        (NameKind.of scopes node.name = .primitive ∧ node.arguments.isSome = true) ∨
        (NameKind.of scopes node.name = .declared ∧ lookup node.name = none)) ∧
    (∀ failure, signature.resolve lookup scopes = .error failure ↔
      ∃ before node after, signature.visited scopes = before ++ node :: after ∧
        defect? lookup scopes node.head = some failure ∧
        ∀ earlier ∈ before, defect? lookup scopes earlier.head = none) ∧
    ∀ other : Signature, (other.visited scopes).map head = (signature.visited scopes).map head →
      ∀ failure, other.resolve lookup scopes = .error failure ↔
        signature.resolve lookup scopes = .error failure := by
  have fails (signature : Signature) (failure : Failure) :
      signature.resolve lookup scopes = .error failure ↔
        ((signature.visited scopes).map head).findSome? (defect? lookup scopes) =
          some failure := by
    rw [← failure?_resolve, failure?_eq_some_iff]
  refine ⟨?_, ?_, ?_⟩
  · simp only [fails, ← Option.isSome_iff_exists, List.findSome?_map, List.findSome?_isSome_iff,
      Function.comp_apply, defect?_head_isSome_iff]
  · intro failure
    rw [fails, List.findSome?_map, List.findSome?_eq_some_iff]
    rfl
  · intro other same failure
    rw [fails, fails, same]

/-- What hangs below a variable is passed by, so the generic primitive comes first. -/
theorem resolve_failsLeftmost_behindVariables :
    let lookup : Lookup := fun name => if name = "a.Map" then some ⟨3⟩ else none
    let scopes : List Scope := [⟨.declaration ⟨0⟩, ["T", "int"]⟩]
    let lost := named "q.Lost" none 0
    let signature (hidden : Option (List Signature)) := named "a.Map"
      (some [named "int" hidden 1, ⟨wildcardName, hidden, 0, .upper,
        [named "T" hidden 0, named "a.Map" (some [named "long" (some []) 0]) 0]⟩, lost]) 2
    ((signature (some [lost])).visited scopes).map name =
        ["a.Map", "int", "?", "T", "a.Map", "long", "q.Lost"] ∧
      (signature (some [lost])).resolve lookup scopes = .error (.genericPrimitive "long") ∧
      (signature (some [])).resolve lookup scopes = .error (.genericPrimitive "long") := by
  intro lookup scopes lost signature
  have walk : ((signature (some [lost])).visited scopes).map name =
      ["a.Map", "int", "?", "T", "a.Map", "long", "q.Lost"] := by decide +kernel
  obtain ⟨-, first, alike⟩ := resolve_failsLeftmost lookup scopes (signature (some [lost]))
  have failed := (first (.genericPrimitive "long")).mpr ⟨
    ((signature (some [lost])).visited scopes).take 5, named "long" (some []) 0, [lost],
    by decide +kernel, by decide +kernel, by decide +kernel⟩
  exact ⟨walk, failed, (alike (signature (some [])) (by decide +kernel) _).mpr failed⟩

end Signature

end TypeGraph
