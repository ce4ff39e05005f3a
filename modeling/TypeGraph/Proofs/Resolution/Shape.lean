import TypeGraph.Proofs.Resolution.Hygiene
import TypeGraph.Proofs.Resolution.Retraction
import TypeGraph.Proofs.Resolution.Walk

/-!
This file says what the references of signatures look like. Array dimensions stand around variables,
wildcards and primitive types only and are never nested, and the targets of a reference are what the
lookup finds for the declared names of the walk through its signature.
-/

namespace TypeGraph

/-! ### Flat references -/

namespace Reference

/-- Variables, wildcards and primitive types have no dimensions of their own. -/
def isScalar : Reference → Bool
  | .primitive _ => true
  | .typeVariable _ _ => true
  | .wildcard _ _ => true
  | .array _ _ => false
  | .declared _ _ _ _ => false

/-- A flat array has all of its dimensions in one place, around an element that has none. -/
def IsFlat : Reference → Prop
  | .array element rank => 0 < rank ∧ element.isScalar = true
  | _ => True

/-- A scalar is never an array, so it is flat. -/
theorem isFlat_of_isScalar {element : Reference} (scalar : element.isScalar = true) :
    element.IsFlat := by
  cases element with
  | array element rank => cases scalar
  | _ => trivial

/-- A scalar has no dimensions. -/
theorem arrayRank_of_isScalar {element : Reference} (scalar : element.isScalar = true) :
    element.arrayRank = 0 := by
  cases element with
  | primitive kind => rfl
  | typeVariable name owner => rfl
  | wildcard bound bounds => rfl
  | array element rank => cases scalar
  | declared target name arguments rank => cases scalar

/-- The dimensions of an array are added to those of its element. -/
theorem arrayRank_arrayOf (element : Reference) (rank : Nat) :
    (arrayOf element rank).arrayRank = rank + element.arrayRank := by
  unfold arrayOf
  split
  next flat => rw [flat, Nat.zero_add]
  next => rw [arrayRank]

/-- Dimensions change nothing about the targets. -/
theorem targets_arrayOf (element : Reference) (rank : Nat) :
    (arrayOf element rank).targets = element.targets := by
  unfold arrayOf
  split <;> rfl

end Reference

namespace Signature

variable {lookup : Lookup} {scopes : List Scope} {signature : Signature} {reference : Reference}

/-! ### Composition -/

/-- The references of the parts that count stand in a scalar with dimensions around it, or they are
the arguments of a declaration. -/
inductive Composed (lookup : Lookup) (scopes : List Scope) (signature : Signature)
    (references : List Reference) : Reference → Prop where
  | scalar (element : Reference) (isScalar : element.isScalar = true)
      (undeclared : NameKind.of scopes signature.name ≠ .declared)
      (nodes : element.nodes = element :: Reference.nodesOfAll references)
      (targets : element.targets = Reference.targetsOfAll references) :
      Composed lookup scopes signature references (.arrayOf element signature.rank)
  | declared (target : Handle) (declared : NameKind.of scopes signature.name = .declared)
      (found : lookup signature.name = some target) :
      Composed lookup scopes signature references
        (.declared target signature.name references signature.rank)

/-- What a signature resolves to is composed of what its parts resolve to. -/
theorem exists_composed (resolved : signature.resolve lookup scopes = .ok reference) :
    ∃ references, resolveAll lookup scopes (signature.parts scopes) = .ok references ∧
      Composed lookup scopes signature references reference := by
  cases resolve_eq_ok_iff.mp resolved with
  | typeVariable owner owned =>
      have kind := NameKind.of_owned owned
      exact ⟨[], by rw [parts, kind]; rfl, .scalar _ rfl (by simp [kind]) rfl rfl⟩
  | wildcard bounds free wild each =>
      have kind := NameKind.of_wildcard free wild
      exact ⟨bounds, by rw [parts, kind]; exact each, .scalar _ rfl (by simp [kind]) rfl rfl⟩
  | primitive _ free tame keyword plain =>
      have kind := NameKind.of_primitive free tame keyword
      exact ⟨[], by rw [parts, kind]; rfl, .scalar _ rfl (by simp [kind]) rfl rfl⟩
  | declared target references free tame keyword found each =>
      have kind := NameKind.of_declared free tame keyword
      exact ⟨references, by rw [parts, kind]; exact each, .declared target kind found⟩

/-- What holds of all scalars, arrays of scalars and declarations that visited nodes can stand for
holds of every node of the reference. -/
theorem forall_mem_nodes {motive : Reference → Prop}
    (resolved : signature.resolve lookup scopes = .ok reference)
    (scalars : ∀ element : Reference, element.isScalar = true → motive element)
    (arrays : ∀ origin ∈ signature.visited scopes, ∀ element : Reference,
      element.isScalar = true → 0 < origin.rank → motive (.array element origin.rank))
    (declarations : ∀ origin ∈ signature.visited scopes, ∀ target references,
      motive (.declared target origin.name references origin.rank)) :
    ∀ node ∈ reference.nodes, motive node := by
  induction signature using induct_parts scopes generalizing reference with
  | node signature inductionHypothesis =>
      obtain ⟨references, each, composed⟩ := exists_composed resolved
      rw [visited_eq, List.forall_mem_cons] at arrays declarations
      have inside : ∀ node ∈ Reference.nodesOfAll references, motive node := by
        apply Reference.forall_mem_nodesOfAll
        intro reference member
        obtain ⟨part, counts, found⟩ := exists_resolve_of_mem each member
        have visitedAll {origin : Signature} (visited : origin ∈ part.visited scopes) :=
          (mem_visitedAll_iff scopes).mpr ⟨part, counts, visited⟩
        exact inductionHypothesis part counts found
          (fun origin visited => arrays.2 origin (visitedAll visited))
          fun origin visited => declarations.2 origin (visitedAll visited)
      cases composed with
      | scalar element isScalar undeclared nodes targets =>
          apply Reference.forall_mem_nodes_arrayOf
          · rw [nodes]
            exact List.forall_mem_cons.mpr ⟨scalars element isScalar, inside⟩
          · exact arrays.1 element isScalar
      | declared target declared found =>
          exact List.forall_mem_cons.mpr ⟨declarations.1 target references, inside⟩

/-! ### Ranks -/

/-- Every array in the reference of a signature is flat. -/
theorem isFlat_of_mem_nodes (resolved : signature.resolve lookup scopes = .ok reference) :
    ∀ node ∈ reference.nodes, node.IsFlat := by
  refine forall_mem_nodes (motive := fun node => node.IsFlat) resolved
    ?scalars ?arrays ?declarations
  case scalars => exact fun element isScalar => Reference.isFlat_of_isScalar isScalar
  case arrays => exact fun origin _ element isScalar positive => ⟨positive, isScalar⟩
  case declarations => exact fun origin _ target references => trivial

/-- No node of a reference counts more dimensions than some node of the walk has. -/
theorem arrayRank_le_of_mem_nodes {limit : Nat}
    (resolved : signature.resolve lookup scopes = .ok reference)
    (limited : ∀ node ∈ signature.visited scopes, node.rank ≤ limit) :
    ∀ node ∈ reference.nodes, node.arrayRank ≤ limit := by
  refine forall_mem_nodes (motive := fun node => node.arrayRank ≤ limit) resolved
    ?scalars ?arrays ?declarations
  case scalars =>
    intro element isScalar
    rw [Reference.arrayRank_of_isScalar isScalar]
    exact Nat.zero_le limit
  case arrays =>
    intro origin visited element isScalar _
    rw [Reference.arrayRank, Reference.arrayRank_of_isScalar isScalar]
    exact limited origin visited
  case declarations => exact fun origin visited _ _ => limited origin visited

/-- The rank of a signature is that of its reference, wherever the dimensions are kept. -/
theorem arrayRank_of_resolve (resolved : signature.resolve lookup scopes = .ok reference) :
    reference.arrayRank = signature.rank := by
  obtain ⟨references, -, composed⟩ := exists_composed resolved
  cases composed with
  | scalar element isScalar _ _ _ =>
      rw [Reference.arrayRank_arrayOf, Reference.arrayRank_of_isScalar isScalar, Nat.add_zero]
  | declared target _ _ => rw [Reference.arrayRank]

/-! ### Targets -/

/-- The declared names among some nodes are those of the nodes that are looked up. -/
def declaredNames (scopes : List Scope) (nodes : List Signature) : List String :=
  (nodes.filter fun node => NameKind.of scopes node.name = .declared).map name

/-- A node that names a declaration counts. -/
theorem declaredNames_cons_of_declared {node : Signature}
    (declared : NameKind.of scopes node.name = .declared) (rest : List Signature) :
    declaredNames scopes (node :: rest) = node.name :: declaredNames scopes rest := by
  rw [declaredNames, List.filter_cons_of_pos (by simpa using declared), List.map_cons,
    declaredNames]

/-- A node of another kind does not count. -/
theorem declaredNames_cons_of_ne {node : Signature}
    (other : NameKind.of scopes node.name ≠ .declared) (rest : List Signature) :
    declaredNames scopes (node :: rest) = declaredNames scopes rest := by
  rw [declaredNames, List.filter_cons_of_neg (by simpa using other), declaredNames]

/-- The targets of a list are found signature by signature. -/
theorem map_some_targetsOfAll {signatures : List Signature} {references : List Reference}
    (each : ∀ signature ∈ signatures, ∀ reference, signature.resolve lookup scopes = .ok reference →
      reference.targets.map some = (declaredNames scopes (signature.visited scopes)).map lookup)
    (resolved : resolveAll lookup scopes signatures = .ok references) :
    (Reference.targetsOfAll references).map some =
      (declaredNames scopes (visitedAll scopes signatures)).map lookup := by
  induction signatures generalizing references with
  | nil =>
      rw [resolveAll_nil] at resolved
      cases resolved
      rfl
  | cons signature rest inductionHypothesis =>
      obtain ⟨reference, others, head, tail, rfl⟩ := resolveAll_cons_eq_ok_iff.mp resolved
      obtain ⟨first, later⟩ := List.forall_mem_cons.mp each
      rw [Reference.targetsOfAll, visitedAll, List.map_append, first reference head,
        inductionHypothesis later tail, declaredNames, declaredNames, declaredNames,
        List.filter_append, List.map_append, List.map_append]

/-- The targets of a reference are what the lookup finds for the declared names of the walk. -/
theorem map_some_targets (resolved : signature.resolve lookup scopes = .ok reference) :
    reference.targets.map some =
      (declaredNames scopes (signature.visited scopes)).map lookup := by
  induction signature using induct_parts scopes generalizing reference with
  | node signature inductionHypothesis =>
      obtain ⟨references, each, composed⟩ := exists_composed resolved
      have inside := map_some_targetsOfAll (fun part counts _ => inductionHypothesis part counts) each
      rw [visited_eq]
      cases composed with
      | scalar element isScalar undeclared nodes targets =>
          rw [declaredNames_cons_of_ne undeclared, Reference.targets_arrayOf, targets, inside]
      | declared target declared found =>
          rw [declaredNames_cons_of_declared declared, Reference.targets, List.map_cons,
            List.map_cons, found, inside]

end Signature

/-! ### References in a catalog -/

/-- The shape of what a signature resolves to: it has the rank of the signature, all of its arrays
are flat, no node counts more dimensions than the walk allows, its targets are what the declared
names of the walk lead to in their order, and all of them are live. -/
structure Catalog.Shapes (catalog : Catalog) (scopes : List Scope) (signature : Signature)
    (reference : Reference) : Prop where
  ranked : reference.arrayRank = signature.rank
  flat : ∀ node ∈ reference.nodes, node.IsFlat
  limited : ∀ limit, (∀ node ∈ signature.visited scopes, node.rank ≤ limit) →
    ∀ node ∈ reference.nodes, node.arrayRank ≤ limit
  leads : reference.targets.map some =
    (Signature.declaredNames scopes (signature.visited scopes)).map catalog.lookup?
  live : catalog.dangles reference = false

namespace Catalog

variable {catalog : Catalog} {scopes : List Scope} {signature : Signature} {reference : Reference}

/-- After every history without a renaming, every signature that resolves shapes its reference,
whether or not it can be read from a text. -/
theorem performAll_shapes {commands : List Command}
    (named : ∀ command ∈ commands, command.EditsWithin Declaration.SameName)
    (resolved : signature.resolve (Catalog.empty.performAll commands).lookup? scopes =
      .ok reference) :
    (Catalog.empty.performAll commands).Shapes scopes signature reference where
  ranked := Signature.arrayRank_of_resolve resolved
  flat := Signature.isFlat_of_mem_nodes resolved
  limited := fun _ limited => Signature.arrayRank_le_of_mem_nodes resolved limited
  leads := Signature.map_some_targets resolved
  live := dangles_eq_false_iff.mpr ((performAll_indexed named).findsLive.isLive_of_resolve resolved)

/-- In this history a declaration is removed, another one gets a member and a third one is
registered. -/
def furnished : List Command :=
  [.addPackage "a", .declare "a" (.newClass "Map"), .declare "a" (.newInterface "Lost"),
    .register "b" (.newClass "Set"), .remove ⟨1⟩,
    .edit ⟨0⟩ fun declaration => declaration.withMember (.field ⟨"next", .ofText "a.Map"⟩)]

/-- A wildcard with a rank becomes an array, and the arguments of a variable are left out. -/
theorem performAll_shapes_furnished :
    let catalog := Catalog.empty.performAll furnished
    let scopes : List Scope := [⟨.declaration ⟨0⟩, ["T"]⟩]
    let owned := Signature.named "T" (some [.named "a.Lost" none 0]) 3
    let numbers := Signature.named "int" none 1
    let signature := Signature.named "a.Map" (some [
      ⟨Signature.wildcardName, none, 2, .upper, [owned, .named "b.Set" (some [numbers]) 0]⟩,
      numbers]) 1
    let reference : Reference := .declared ⟨0⟩ "a.Map" [
      .array (.wildcard .upper [.array (.typeVariable "T" (.declaration ⟨0⟩)) 3,
        .declared ⟨2⟩ "b.Set" [.array (.primitive .int) 1] 0]) 2,
      .array (.primitive .int) 1] 1
    (∀ command ∈ furnished, command.EditsWithin Declaration.SameName) ∧
      signature.resolve catalog.lookup? scopes = .ok reference ∧
      catalog.Shapes scopes signature reference := by
  intro catalog scopes owned numbers signature reference
  have named : ∀ command ∈ furnished, command.EditsWithin Declaration.SameName := by
    simp [furnished, Command.EditsWithin, Declaration.SameName, Declaration.withMember]
  have resolved : signature.resolve catalog.lookup? scopes = .ok reference := by decide +kernel
  exact ⟨named, resolved, performAll_shapes named resolved⟩

end Catalog

end TypeGraph
