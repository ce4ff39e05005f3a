import TypeGraph.Proofs.Resolution.Lockstep

/-!
This file defines the outline of a catalog, which forgets members and bounds, and shows that a
resolution depends on nothing else as far as declarations are concerned.
-/

namespace TypeGraph

/-- A bare type parameter has a name and no bounds. -/
def TypeParameter.bare (parameter : TypeParameter) : TypeParameter :=
  ⟨parameter.name, []⟩

/-- The header of a declaration forgets its members and the bounds of its type parameters. -/
def Declaration.header (declaration : Declaration) : Declaration :=
  { declaration with
    typeParameters := declaration.typeParameters.map TypeParameter.bare
    members := [] }

/-- The outline of a catalog keeps the headers of its declarations. -/
def Catalog.outline (catalog : Catalog) : Catalog :=
  { catalog with arena := catalog.arena.map (Option.map Declaration.header) }

theorem TypeParameter.map_bare_eq_iff {first second : List TypeParameter} :
    first.map bare = second.map bare ↔ first.map name = second.map name := by
  have named : ∀ parameters : List TypeParameter, parameters.map bare =
      (parameters.map name).map fun name => ⟨name, []⟩ := by
    intro parameters
    rw [List.map_map]
    rfl
  have injective : Function.Injective fun name : String => TypeParameter.mk name [] := by
    intro name other same
    exact (TypeParameter.mk.inj same).1
  rw [named, named]
  exact (List.map_injective_iff.mpr injective).eq_iff

namespace Declaration

/-- Headers agree when everything but the members and the bounds does. -/
theorem header_eq_iff {first second : Declaration} :
    first.header = second.header ↔
      first.name = second.name ∧ first.package = second.package ∧ first.kind = second.kind ∧
        first.typeParameters.map TypeParameter.name =
          second.typeParameters.map TypeParameter.name ∧
        first.interfaces = second.interfaces := by
  simp only [header, mk.injEq, TypeParameter.map_bare_eq_iff, and_true]

/-- Once its supertypes are settled, a declaration is settled with its bounds and its members. -/
def settleContent (site : Site) (kind : DeclarationKind) (interfaces : Settled (List Slot))
    (declaration : Declaration) : Settlement :=
  let bounds := declaration.settleBounds site
  let members := Member.settleRounds site declaration.kind.settledMembers declaration.members
  ⟨bounds.events ++ interfaces.events ++ members.events,
    .ok
      ({ declaration with
          kind := kind
          typeParameters := bounds.value
          interfaces := interfaces.value
          members := members.value },
        bounds.tally + interfaces.tally + members.tally)⟩

/-- The header decides whether a declaration fails, and what its supertypes are settled to. -/
theorem settle_of_header (lookup : Lookup) (policy : InterfacePolicy) (handle : Handle)
    (declaration : Declaration) :
    (∃ unresolved, ∀ other : Declaration, other.header = declaration.header →
      other.settle lookup policy handle =
        ⟨(other.settleBounds (declaration.site lookup handle)).events ++ [.unresolved unresolved],
          .error unresolved.cause⟩) ∨
    ∃ kind interfaces, ∀ other : Declaration, other.header = declaration.header →
      other.settle lookup policy handle =
        other.settleContent (declaration.site lookup handle) kind interfaces := by
  have sameSite : ∀ other : Declaration, other.header = declaration.header →
      other.site lookup handle = declaration.site lookup handle := by
    intro other same
    obtain ⟨name, package, -, parameters, -⟩ := header_eq_iff.mp same
    rw [site, site, qualifiedName, qualifiedName, name, package, parameters]
  cases kinds : declaration.kind.settle (declaration.site lookup handle) with
  | error unresolved =>
      refine .inl ⟨unresolved, fun other same => ?_⟩
      obtain ⟨-, -, sameKind, -⟩ := header_eq_iff.mp same
      simp only [settle, sameSite other same, sameKind, kinds]
  | ok kind =>
      cases entries : Slot.settleInterfaces (declaration.site lookup handle) policy
          declaration.interfaces with
      | error unresolved =>
          refine .inl ⟨unresolved, fun other same => ?_⟩
          obtain ⟨-, -, sameKind, -, sameInterfaces⟩ := header_eq_iff.mp same
          simp only [settle, sameSite other same, sameKind, kinds, sameInterfaces, entries]
      | ok interfaces =>
          refine .inr ⟨kind, interfaces, fun other same => ?_⟩
          obtain ⟨-, -, sameKind, -, sameInterfaces⟩ := header_eq_iff.mp same
          simp only [settle, sameSite other same, sameKind, kinds, sameInterfaces, entries,
            settleContent]

end Declaration

/-! ### Members drop no interfaces -/

namespace Member

variable {site : Site}

@[simp] theorem droppedInterfaces_settle (member : Member) :
    (member.settle site).tally.droppedInterfaces = 0 := by
  have bounds : (member.settleBounds site).tally.droppedInterfaces = 0 := rfl
  unfold settle
  dsimp only
  split
  next => exact bounds
  next => simp [bounds]

@[simp] theorem droppedInterfaces_settleRound (kind : MemberKind) (members : List Member) :
    (settleRound site kind members).tally.droppedInterfaces = 0 := by
  induction members with
  | nil => rfl
  | cons member rest inductionHypothesis =>
      unfold settleRound
      split
      next => simp [inductionHypothesis]
      next => exact inductionHypothesis

@[simp] theorem droppedInterfaces_settleRounds (kinds : List MemberKind) (members : List Member) :
    (settleRounds site kinds members).tally.droppedInterfaces = 0 := by
  induction kinds generalizing members with
  | nil => rfl
  | cons kind rest inductionHypothesis => simp [settleRounds, inductionHypothesis]

end Member

namespace Catalog

/-- Every place of the outline has the header of its declaration. -/
theorem declaration?_outline (catalog : Catalog) (handle : Handle) :
    catalog.outline.declaration? handle =
      (catalog.declaration? handle).map Declaration.header := by
  rw [declaration?, declaration?, outline, Array.getElem?_map]
  cases catalog.arena[handle.index]? with
  | none => rfl
  | some place => cases place <;> rfl

/-- Catalogs have one outline when they differ within members and bounds only. -/
theorem outline_eq_iff {first second : Catalog} :
    first.outline = second.outline ↔
      Catalog.Alike (fun _ before after => before.header = after.header) first second := by
  constructor
  · intro same
    constructor
    case packages => exact congrArg (fun catalog => catalog.packages) same
    case registry => exact congrArg (fun catalog => catalog.registry) same
    case size => simpa [outline] using congrArg (fun catalog => catalog.arena.size) same
    case places =>
      intro handle
      have place := congrArg (fun catalog => catalog.declaration? handle) same
      simp only [declaration?_outline] at place
      generalize first.declaration? handle = before at place ⊢
      generalize second.declaration? handle = after at place ⊢
      cases before with
      | none =>
          cases after with
          | none => exact .none
          | some => cases place
      | some =>
          cases after with
          | none => cases place
          | some => exact .some (Option.some.inj place)
  · intro alike
    refine ext_declaration? alike.packages alike.registry ?_ ?_
    · simpa [outline] using alike.size
    · intro handle
      rw [declaration?_outline, declaration?_outline]
      rcases alike.places_cases handle with ⟨isFirst, isSecond⟩ |
        ⟨before, after, isFirst, isSecond, same⟩
      · rw [isFirst, isSecond]
      · rw [isFirst, isSecond, Option.map_some, Option.map_some, same]

end Catalog

/-- Declarations with one header stay in lockstep, whatever they report. -/
theorem Lockstep.header :
    Lockstep (fun _ first second => first.header = second.header) fun _ _ => True where
  refl := fun _ _ => rfl
  sameName := by
    intro _ first second same
    obtain ⟨name, package, -⟩ := Declaration.header_eq_iff.mp same
    exact ⟨name.symm, package.symm⟩
  sameKind := by
    intro _ first second same
    obtain ⟨-, -, kind, -⟩ := Declaration.header_eq_iff.mp same
    rw [Declaration.isClass, Declaration.isClass, kind]
  settle := by
    intro handle first second same lookup policy
    refine ⟨?_, trivial⟩
    rcases first.settle_of_header lookup policy handle with
      ⟨unresolved, settles⟩ | ⟨kind, interfaces, settles⟩
    · rw [settles first rfl, settles second same.symm]
      exact .error _
    · rw [settles first rfl, settles second same.symm]
      obtain ⟨name, package, -, parameters, -⟩ := Declaration.header_eq_iff.mp same
      refine .ok ?_ ?_
      · apply Declaration.header_eq_iff.mpr
        simpa [Declaration.settleBounds, TypeParameter.names_settleAll] using
          ⟨name, package, parameters⟩
      · have silent : ∀ declaration : Declaration,
            (declaration.settleBounds (first.site lookup handle)).tally.droppedInterfaces = 0 :=
          fun _ => rfl
        simp [silent]
  quiet := fun _ => trivial
  append := fun _ _ => trivial

end TypeGraph
