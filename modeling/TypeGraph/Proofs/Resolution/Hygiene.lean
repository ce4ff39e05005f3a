import Mathlib.Data.List.Basic
import TypeGraph.Proofs.Resolution.Passes
import TypeGraph.Proofs.Resolution.Tidiness
import TypeGraph.Resolution.Command

/-!
This file shows that type variables are scoped hygienically. In every slot that a visit settles, a
name that is introduced around the slot stands for its variable at every depth and for nothing else,
and a method owns variables only in its own slots.
-/

namespace TypeGraph

/-! ### Nodes -/

namespace Reference

mutual

/-- The nodes of a reference are all of its parts at any depth, and it comes first. -/
def nodes : Reference → List Reference
  | .primitive kind => [.primitive kind]
  | .typeVariable name owner => [.typeVariable name owner]
  | .wildcard bound bounds => .wildcard bound bounds :: nodesOfAll bounds
  | .array element rank => .array element rank :: element.nodes
  | .declared target name arguments rank =>
      .declared target name arguments rank :: nodesOfAll arguments

/-- The nodes of a list are those of its members in order. -/
def nodesOfAll : List Reference → List Reference
  | [] => []
  | reference :: rest => reference.nodes ++ nodesOfAll rest

end

theorem mem_nodesOfAll_iff {references : List Reference} {node : Reference} :
    node ∈ nodesOfAll references ↔ ∃ reference ∈ references, node ∈ reference.nodes := by
  induction references with
  | nil => simp [nodesOfAll]
  | cons reference rest inductionHypothesis => simp [nodesOfAll, inductionHypothesis]

/-- What holds of the nodes of all references of a list holds of the nodes of the list. -/
theorem forall_mem_nodesOfAll {holds : Reference → Prop} {references : List Reference}
    (each : ∀ reference ∈ references, ∀ node ∈ reference.nodes, holds node) :
    ∀ node ∈ nodesOfAll references, holds node := by
  intro node listed
  obtain ⟨reference, member, inside⟩ := mem_nodesOfAll_iff.mp listed
  exact each reference member node inside

/-- Wrapping an element into an array adds at most one node. -/
theorem forall_mem_nodes_arrayOf {holds : Reference → Prop} {element : Reference} {rank : Nat}
    (inside : ∀ node ∈ element.nodes, holds node)
    (whole : 0 < rank → holds (.array element rank)) :
    ∀ node ∈ (arrayOf element rank).nodes, holds node := by
  unfold arrayOf
  split
  next => exact inside
  next dimensions =>
    exact List.forall_mem_cons.mpr ⟨whole (Nat.pos_of_ne_zero dimensions), inside⟩

/-- A node obeys the owners of names when it is the variable of a name with an owner, or when it
goes by a name without one. -/
def Obeys (owner? : String → Option VariableOwner) : Reference → Prop
  | .primitive kind => owner? kind.keyword = none
  | .typeVariable name owner => owner? name = some owner
  | .wildcard _ _ => owner? Signature.wildcardName = none
  | .array _ _ => True
  | .declared _ name _ _ => owner? name = none

end Reference

/-- Every node of a resolved signature obeys the owners that names have in the scopes. -/
theorem Signature.obeys_of_mem_nodes {lookup : Lookup} {scopes : List Scope}
    {signature : Signature} {reference : Reference}
    (resolved : signature.resolve lookup scopes = .ok reference) :
    ∀ node ∈ reference.nodes, node.Obeys (Scope.owner? scopes) := by
  refine induct_resolve (motive := fun reference =>
    ∀ node ∈ reference.nodes, node.Obeys (Scope.owner? scopes))
    ?typeVariable ?wildcard ?primitive ?declared resolved
  case typeVariable =>
    intro name owner rank owned
    exact Reference.forall_mem_nodes_arrayOf (List.forall_mem_singleton.mpr owned) fun _ => trivial
  case wildcard =>
    intro bound bounds rank free each
    have inside := Reference.forall_mem_nodesOfAll each
    exact Reference.forall_mem_nodes_arrayOf (List.forall_mem_cons.mpr ⟨free, inside⟩)
      fun _ => trivial
  case primitive =>
    intro kind rank free
    exact Reference.forall_mem_nodes_arrayOf (List.forall_mem_singleton.mpr free) fun _ => trivial
  case declared =>
    intro target name arguments rank free found each
    exact List.forall_mem_cons.mpr ⟨free, Reference.forall_mem_nodesOfAll each⟩

/-! ### Slots that are settled -/

/-- The slots of the bounds that are not marked. -/
def TypeParameter.openSlots (parameters : List TypeParameter) : List Slot :=
  ((parameters.flatMap bounds).filter fun bound => !bound.unresolvable).map Bound.slot

/-- Type parameters introduce their names. -/
def TypeParameter.introduce (parameters : List TypeParameter) (name : String) : Bool :=
  (parameters.map TypeParameter.name).contains name

/-- A method introduces type parameters, and no other member does. -/
def Member.method? : Member → Option Method
  | .method content => some content
  | _ => none

/-- The settled slots of a member, each with the method around it, if there is one. -/
def Member.settledSlots (member : Member) : List (Option Method × Slot) :=
  (member.ownSlots ++ TypeParameter.openSlots member.typeParameters).map fun slot =>
    (member.method?, slot)

namespace Declaration

/-- The settled slots of a declaration leave out marked bounds and members that never settle. -/
def settledSlots (declaration : Declaration) : List (Option Method × Slot) :=
  ((declaration.superclass?.toList ++ declaration.interfaces ++
      TypeParameter.openSlots declaration.typeParameters).map fun slot => (none, slot)) ++
    (declaration.members.filter fun member =>
      member.kind ∈ declaration.kind.settledMembers).flatMap Member.settledSlots

/-- A declaration owns the names of its type parameters. -/
def ownOwner? (handle : Handle) (declaration : Declaration) (name : String) :
    Option VariableOwner :=
  if TypeParameter.introduce declaration.typeParameters name then some (.declaration handle)
  else none

/-- A name belongs to the method around a slot if that introduces it, and otherwise to the
declaration if that does. -/
def owner? (handle : Handle) (declaration : Declaration) :
    Option Method → String → Option VariableOwner
  | none, name => declaration.ownOwner? handle name
  | some method, name =>
      if TypeParameter.introduce method.typeParameters name then
        some (.method handle ((Member.method method).label declaration.qualifiedName))
      else declaration.ownOwner? handle name

/-- A declaration is hygienic when every settled slot holds a reference all of whose nodes obey the
owners of names around the slot. Then methods own variables only in their own slots. -/
structure IsHygienic (handle : Handle) (declaration : Declaration) : Prop where
  obeyed : ∀ place ∈ declaration.settledSlots, ∃ reference,
    place.2.reference = some reference ∧
      ∀ node ∈ reference.nodes, node.Obeys (declaration.owner? handle place.1)
  confined : ∀ place ∈ declaration.settledSlots, ∀ reference ∈ place.2.reference,
    ∀ name declaring label, .typeVariable name (.method declaring label) ∈ reference.nodes →
      declaring = handle ∧ ∃ method, place.1 = some method ∧
        label = (Member.method method).label declaration.qualifiedName ∧
        TypeParameter.introduce method.typeParameters name = true

end Declaration

/-! ### Scopes -/

/-- The innermost scope decides about the names that it introduces. -/
theorem Scope.owner?_cons (scope : Scope) (rest : List Scope) (name : String) :
    owner? (scope :: rest) name =
      if scope.names.contains name then some scope.owner else owner? rest name := by
  unfold owner?
  rw [List.find?_cons]
  cases scope.names.contains name <;> rfl

/-- The scopes around a slot are those of the method in which it stands. -/
def Site.scopesAround (site : Site) : Option Method → List Scope
  | some method => site.scopesOf (.method method)
  | none => [site.scope]

theorem Site.scopesAround_method? (site : Site) (member : Member) :
    site.scopesAround member.method? = site.scopesOf member := by
  cases member <;> rfl

/-- The scopes around a slot give names the owners that they have there. -/
theorem Declaration.owner?_scopesAround (lookup : Lookup) (handle : Handle)
    (declaration : Declaration) (method? : Option Method) :
    Scope.owner? ((declaration.site lookup handle).scopesAround method?) =
      declaration.owner? handle method? := by
  have outermost : ∀ name, Scope.owner? [(declaration.site lookup handle).scope] name =
      declaration.ownOwner? handle name := fun name => Scope.owner?_cons ..
  funext name
  cases method? with
  | none => exact outermost name
  | some method =>
      rw [owner?, ← outermost]
      exact Scope.owner?_cons ..

/-- Only the method around a slot owns variables there. -/
theorem Declaration.eq_of_owner?_eq_method {handle declaring : Handle} {declaration : Declaration}
    {method? : Option Method} {name label : String}
    (owned : declaration.owner? handle method? name = some (.method declaring label)) :
    declaring = handle ∧ ∃ method, method? = some method ∧
      label = (Member.method method).label declaration.qualifiedName ∧
      TypeParameter.introduce method.typeParameters name = true := by
  have notOwn : declaration.ownOwner? handle name ≠ some (.method declaring label) := by
    unfold ownOwner?
    split <;> simp
  cases method? with
  | none => exact absurd owned notOwn
  | some method =>
      rw [owner?] at owned
      split at owned
      next introduced =>
        cases owned
        exact ⟨rfl, method, rfl, rfl, introduced⟩
      next => exact absurd owned notOwn

/-! ### Filled slots -/

/-- A slot is held in scopes when its reference is the one of its text there. -/
def Slot.HeldIn (lookup : Lookup) (scopes : List Scope) (slot : Slot) : Prop :=
  ∃ reference, slot.reference = some reference ∧
    resolveText lookup scopes slot.text = .ok reference

section Filled

variable {lookup : Lookup} {scopes : List Scope}

theorem Slot.Resolves.heldIn_fill {slot : Slot} (resolves : slot.Resolves lookup scopes) :
    (slot.fill lookup scopes).HeldIn lookup scopes := by
  obtain ⟨reference, found⟩ := resolves
  exact ⟨reference, by simp [Slot.fill, found, Except.toOption], found⟩

/-- The bounds that are open after filling are held. -/
theorem TypeParameter.heldIn_of_mem_openSlots {parameters : List TypeParameter} {slot : Slot}
    (inside : slot ∈ openSlots (parameters.map fun parameter => parameter.fill lookup scopes)) :
    slot.HeldIn lookup scopes := by
  obtain ⟨bound, isOpen, rfl⟩ := List.mem_map.mp inside
  obtain ⟨listed, unmarked⟩ := List.mem_filter.mp isOpen
  obtain ⟨filled, introduced, among⟩ := List.mem_flatMap.mp listed
  obtain ⟨parameter, -, rfl⟩ := List.mem_map.mp introduced
  obtain ⟨before, -, rfl⟩ := List.mem_map.mp among
  unfold Bound.fill at unmarked ⊢
  split
  next marked => simp [marked] at unmarked
  next untried => exact Slot.Resolves.heldIn_fill (by simpa [untried] using unmarked)

/-- The settled slots of a filled member are held in its scopes. -/
theorem Member.Resolves.heldIn_fill {site : Site} {member : Member}
    (resolves : member.Resolves site) :
    ∀ place ∈ (member.fill site).settledSlots,
      place.2.HeldIn site.lookup (site.scopesAround place.1) := by
  intro place inside
  obtain ⟨slot, listed, rfl⟩ := List.mem_map.mp inside
  rw [Site.scopesAround_method?, fill, scopesOf_fillIn]
  rw [fill, ownSlots_fillIn, typeParameters_fillIn] at listed
  rcases List.mem_append.mp listed with own | bound
  · obtain ⟨original, required, rfl⟩ := List.mem_map.mp own
    exact (resolves original required).heldIn_fill
  · exact TypeParameter.heldIn_of_mem_openSlots bound

/-- The settled slots of a filled declaration are held in the scopes around them. -/
theorem Declaration.Stands.heldIn_fill {policy : InterfacePolicy} {handle : Handle}
    {declaration : Declaration} (stands : declaration.Stands lookup policy handle) :
    ∀ place ∈ (declaration.fill lookup handle).settledSlots,
      place.2.HeldIn lookup ((declaration.site lookup handle).scopesAround place.1) := by
  intro place inside
  rcases List.mem_append.mp inside with outer | inner
  · obtain ⟨slot, listed, rfl⟩ := List.mem_map.mp outer
    simp only [superclass?_fill, List.mem_append, Option.mem_toList] at listed
    rcases listed with (superclass | interface) | bound
    · obtain ⟨original, present, rfl⟩ := Option.map_eq_some_iff.mp superclass
      exact (stands.1 original present).heldIn_fill
    · obtain ⟨original, kept, rfl⟩ := List.mem_map.mp interface
      exact Slot.Resolves.heldIn_fill (of_decide_eq_true (List.mem_filter.mp kept).2)
    · exact TypeParameter.heldIn_of_mem_openSlots bound
  · obtain ⟨filled, listed, among⟩ := List.mem_flatMap.mp inner
    obtain ⟨present, settled⟩ := List.mem_filter.mp listed
    have sameKinds : (declaration.fill lookup handle).kind.settledMembers =
        declaration.kind.settledMembers := DeclarationKind.settledMembers_fill _ _
    rw [sameKinds, decide_eq_true_iff] at settled
    obtain ⟨member, resolves, rfl⟩ := exists_resolves_of_mem_members_fill present settled
    exact resolves.heldIn_fill place among

/-- A filled declaration that stands is hygienic. -/
theorem Declaration.Stands.isHygienic_fill {policy : InterfacePolicy} {handle : Handle}
    {declaration : Declaration} (stands : declaration.Stands lookup policy handle) :
    (declaration.fill lookup handle).IsHygienic handle := by
  have obeyed : ∀ place ∈ (declaration.fill lookup handle).settledSlots, ∃ reference,
      place.2.reference = some reference ∧ ∀ node ∈ reference.nodes,
        node.Obeys ((declaration.fill lookup handle).owner? handle place.1) := by
    intro place inside
    obtain ⟨reference, held, found⟩ := stands.heldIn_fill place inside
    obtain ⟨signature, -, resolved⟩ := resolveText_eq_ok_iff.mp found
    rw [← owner?_scopesAround lookup, site_fill]
    exact ⟨reference, held, Signature.obeys_of_mem_nodes resolved⟩
  refine ⟨obeyed, ?_⟩
  intro place inside reference held name declaring label among
  obtain ⟨other, same, obeys⟩ := obeyed place inside
  obtain rfl : reference = other := Option.some.inj (held.symm.trans same)
  exact eq_of_owner?_eq_method (obeys _ among)

end Filled

namespace Catalog

variable {catalog : Catalog} {policy : InterfacePolicy} {handle : Handle} {settled : Declaration}
  {tally : Tally}

/-- A visit that succeeds leaves the declaration hygienic, if there is one. -/
theorem visit_isHygienic (succeeds : (catalog.visit policy handle).result = .ok tally)
    (found : (catalog.visit policy handle).catalog.declaration? handle = some settled) :
    settled.IsHygienic handle := by
  obtain ⟨declaration, -, stands, rfl⟩ := exists_stands_of_visit succeeds found
  exact stands.isHygienic_fill

/-- One method of a class shadows its type parameter, and another calls its own like a primitive. -/
def hidingVariables : List Command :=
  [.addPackage "", .declare "" (.newClass "T"),
    .declare ""
      { name := "Box"
        package := ""
        kind := .ofClass (some (.ofText "Box<T>"))
        typeParameters := [.ofTexts "T" ["Box<? extends T>"]]
        interfaces := []
        members :=
          [.field ⟨"item", .ofText "T[]"⟩,
            .method ⟨"map", [.ofTexts "T" ["Box<T>"]], [⟨"box", .ofText "Box<T>"⟩],
              .ofText "int"⟩,
            .method ⟨"fill", [.ofTexts "int" []], [⟨"count", .ofText "int"⟩], .ofText "T"⟩,
            .constructor ⟨"Box", [⟨"item", .ofText "T"⟩]⟩] }]

/-- Every variable of the class belongs to the innermost scope that declares its name. -/
theorem visit_isHygienic_hidingVariables :
    let catalog := Catalog.empty.performAll hidingVariables
    let visit := catalog.visit .dropEntry ⟨1⟩
    (∃ settled, visit.catalog.declaration? ⟨1⟩ = some settled ∧ settled.IsHygienic ⟨1⟩) ∧
      visit.result = .ok ⟨0, 0, 0⟩ ∧
      (visit.catalog.declaration? ⟨1⟩).map (fun settled =>
          settled.settledSlots.map fun place => place.2.reference.map Reference.typeVariables) =
        some [some [("T", .declaration ⟨1⟩)], some [("T", .declaration ⟨1⟩)],
          some [("T", .declaration ⟨1⟩)], some [("T", .method ⟨1⟩ "Box#map(Box<T>)")], some [],
          some [("T", .method ⟨1⟩ "Box#map(Box<T>)")],
          some [("int", .method ⟨1⟩ "Box#fill(int)")], some [("T", .declaration ⟨1⟩)],
          some [("T", .declaration ⟨1⟩)]] := by
  intro catalog visit
  have succeeds : visit.result = .ok ⟨0, 0, 0⟩ := by decide +kernel
  have live : (visit.catalog.declaration? ⟨1⟩).isSome = true := by decide +kernel
  obtain ⟨settled, found⟩ := Option.isSome_iff_exists.mp live
  refine ⟨⟨settled, found, visit_isHygienic succeeds found⟩, succeeds, ?_⟩
  decide +kernel

end Catalog

end TypeGraph
