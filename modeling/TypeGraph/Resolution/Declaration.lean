import TypeGraph.Resolution.Member

/-!
This file settles whole declarations. A declaration fails with its superclass, and under the strict
policy also with its first interface that does not resolve.
-/

namespace TypeGraph

/-- The policy decides what an unresolved interface costs: the declaration or the entry. -/
inductive InterfacePolicy where
  | removeDeclaration
  | dropEntry
deriving DecidableEq, Repr

/-- Constructors of an interface are kept as they are. -/
def DeclarationKind.settledMembers : DeclarationKind → List MemberKind
  | .ofClass _ => [.field, .method, .constructor]
  | .ofInterface => [.field, .method]

/-- The superclass of a class is settled, and an interface has none. -/
def DeclarationKind.settle (site : Site) : DeclarationKind → Except Unresolved DeclarationKind
  | .ofClass (some superclass) =>
      match superclass.settle site.lookup [site.scope] with
      | .error unresolved => .error unresolved
      | .ok settled => .ok (.ofClass (some settled))
  | .ofClass none => .ok (.ofClass none)
  | .ofInterface => .ok .ofInterface

/-- Interface entries are settled in order; the policy decides whether a failure ends this. -/
def Slot.settleInterfaces (site : Site) (policy : InterfacePolicy) :
    List Slot → Except Unresolved (Settled (List Slot))
  | [] => .ok ⟨[], .zero, []⟩
  | slot :: rest =>
      match slot.settle site.lookup [site.scope] with
      | .ok settled =>
          match settleInterfaces site policy rest with
          | .error unresolved => .error unresolved
          | .ok later => .ok ⟨settled :: later.value, later.tally, later.events⟩
      | .error unresolved =>
          match policy with
          | .removeDeclaration => .error unresolved
          | .dropEntry =>
              match settleInterfaces site policy rest with
              | .error unresolved => .error unresolved
              | .ok later =>
                  .ok ⟨later.value, ⟨0, 1, 0⟩ + later.tally,
                    [.unresolved unresolved, .reported (.interfaceDropped site.name unresolved)] ++
                      later.events⟩

/-- A settlement has its events also when the declaration fails. -/
structure Settlement where
  events : List Event
  result : Except Failure (Declaration × Tally)

namespace Declaration

/-- The site of a declaration is seen through a lookup that stays the same while it is settled. -/
def site (lookup : Lookup) (handle : Handle) (declaration : Declaration) : Site :=
  ⟨lookup, handle, declaration.qualifiedName, declaration.typeParameters.map TypeParameter.name⟩

/-- The bounds of a declaration are settled in the scope of its own type parameters. -/
def settleBounds (site : Site) (declaration : Declaration) : Settled (List TypeParameter) :=
  TypeParameter.settleAll site.lookup [site.scope] site.name declaration.typeParameters

/-- The bounds come first, then the superclass, the interfaces and the members by kind. -/
def settle (lookup : Lookup) (policy : InterfacePolicy) (handle : Handle)
    (declaration : Declaration) : Settlement :=
  let site := declaration.site lookup handle
  let bounds := declaration.settleBounds site
  match declaration.kind.settle site with
  | .error unresolved => ⟨bounds.events ++ [.unresolved unresolved], .error unresolved.cause⟩
  | .ok kind =>
      match Slot.settleInterfaces site policy declaration.interfaces with
      | .error unresolved => ⟨bounds.events ++ [.unresolved unresolved], .error unresolved.cause⟩
      | .ok interfaces =>
          let members :=
            Member.settleRounds site declaration.kind.settledMembers declaration.members
          ⟨bounds.events ++ interfaces.events ++ members.events,
            .ok
              ({ declaration with
                  kind := kind
                  typeParameters := bounds.value
                  interfaces := interfaces.value
                  members := members.value },
                bounds.tally + interfaces.tally + members.tally)⟩

end Declaration

end TypeGraph
