import TypeGraph.Proofs.Resolution.ExtraMember
import TypeGraph.Proofs.Resolution.Outline
import TypeGraph.Resolution.Command

/-!
This file shows that members and bounds are isolated. They decide nothing about declarations, and
one more member changes neither its siblings nor what is reported about anything else.
-/

namespace TypeGraph

namespace Declaration

/-- A member is inserted after the given number of members, or at the end if there are fewer. -/
def insertMember (position : Nat) (member : Member) (declaration : Declaration) : Declaration :=
  { declaration with
    members := declaration.members.take position ++ member :: declaration.members.drop position }

/-- Declarations are equal except that the one at the given handle may have gained a version of
the extra member, under the given label. -/
def GainsAt (handle : Handle) (extra : Member) (label : String) (place : Handle)
    (first second : Declaration) : Prop :=
  second = first ∨
    place = handle ∧ extra.label first.qualifiedName = label ∧
      ∃ members, second = { first with members := members } ∧
        Member.Inserted extra first.members members

end Declaration

/-- A declaration that gained a member stays in lockstep, and only this member is reported. -/
theorem Lockstep.gainsAt (handle : Handle) (extra : Member) (label : String) :
    Lockstep (Declaration.GainsAt handle extra label) (Diagnostic.AddsOnly label) where
  refl := fun _ _ => .inl rfl
  sameName := by
    intro _ first second gains
    rcases gains with rfl | ⟨-, -, members, rfl, -⟩
    · exact ⟨rfl, rfl⟩
    · exact ⟨rfl, rfl⟩
  sameKind := by
    intro _ first second gains
    rcases gains with rfl | ⟨-, -, members, rfl, -⟩
    · rfl
    · rfl
  settle := by
    intro place first second gains lookup policy
    rcases gains with rfl | ⟨here, named, members, rfl, inserted⟩
    · exact .refl (fun _ => .inl rfl) .refl _
    · rcases first.settle_of_header lookup policy place with
        ⟨unresolved, settles⟩ | ⟨kind, interfaces, settles⟩
      · rw [settles first rfl, settles { first with members := members } rfl]
        exact ⟨.error _, .refl _⟩
      · rw [settles first rfl, settles { first with members := members } rfl]
        obtain ⟨values, diagnostics⟩ :=
          inserted.settleRounds (first.site lookup place) first.kind.settledMembers
        constructor
        case result =>
          refine .ok ?_ (by simp [Declaration.settleBounds])
          rcases values with equal | still
          · exact .inl (congrArg _ equal)
          · exact .inr ⟨here, named, _, rfl, still⟩
        case diagnosed =>
          simp only [Declaration.settleContent, Event.diagnostics_append]
          exact .append (.refl _) (named ▸ diagnostics)
  quiet := .refl
  append := .append

/-- Runs have one outline when they end alike as far as declarations are concerned. -/
structure Run.SameOutline (first second : Run) : Prop where
  passes : first.summary.passes = second.summary.passes
  removed : first.summary.removed = second.summary.removed
  dropped : first.summary.tally.droppedInterfaces = second.summary.tally.droppedInterfaces
  converged : first.summary.converged = second.summary.converged
  outline : first.catalog.outline = second.catalog.outline

/-- A run gains only one member when its catalog and its diagnostics are those of another run but
for a version of this member and for reports under its label. -/
structure Run.GainsOnly (handle : Handle) (extra : Member) (label : String)
    (smaller larger : Run) : Prop where
  catalog : larger.catalog = smaller.catalog ∨
    ∃ position version, version.declared = extra.declared ∧
      larger.catalog =
        smaller.catalog.update handle (Declaration.insertMember position version)
  diagnostics : Diagnostic.AddsOnly label (Notice.diagnostics smaller.notices)
    (Notice.diagnostics larger.notices)

namespace Catalog

variable {handle : Handle} {extra : Member} {label : String}

theorem alike_insertMember {catalog : Catalog} {declaration : Declaration}
    (found : catalog.declaration? handle = some declaration) (position : Nat) (extra : Member) :
    catalog.Alike (Declaration.GainsAt handle extra (extra.label declaration.qualifiedName))
      (catalog.update handle (Declaration.insertMember position extra)) where
  packages := (packages_update catalog handle _).symm
  registry := (registry_update catalog handle _).symm
  size := (size_update catalog handle _).symm
  places := by
    intro other
    rw [declaration?_update]
    by_cases same : other = handle
    · have inserted :=
        (Member.Inserted.here extra (declaration.members.drop position) rfl).append
          (declaration.members.take position)
      rw [List.take_append_drop] at inserted
      rw [same, if_pos rfl, found]
      exact .some (.inr ⟨rfl, rfl, _, rfl, inserted⟩)
    · rw [if_neg same]
      cases catalog.declaration? other with
      | none => exact .none
      | some => exact .some (.inl rfl)

/-- Catalogs in lockstep are equal, or one declaration of the second has one more member. -/
theorem Alike.eq_update {first second : Catalog}
    (alike : first.Alike (Declaration.GainsAt handle extra label) second) :
    second = first ∨ ∃ position version, version.declared = extra.declared ∧
      second = first.update handle (Declaration.insertMember position version) := by
  have elsewhere : ∀ other, other ≠ handle →
      second.declaration? other = first.declaration? other := by
    intro other different
    rcases alike.places_cases other with ⟨isFirst, isSecond⟩ |
      ⟨before, after, isFirst, isSecond, gains⟩
    · rw [isFirst, isSecond]
    · rcases gains with rfl | ⟨same, -⟩
      · rw [isFirst, isSecond]
      · exact absurd same different
  have unchanged : second.declaration? handle = first.declaration? handle → second = first := by
    intro same
    apply ext_declaration? alike.packages.symm alike.registry.symm alike.size.symm
    intro other
    by_cases here : other = handle
    · rw [here, same]
    · exact elsewhere other here
  rcases alike.places_cases handle with ⟨isFirst, isSecond⟩ |
    ⟨before, after, isFirst, isSecond, gains⟩
  · exact .inl (unchanged (isSecond.trans isFirst.symm))
  · rcases gains with rfl | ⟨-, -, members, rfl, inserted⟩
    · exact .inl (unchanged (isSecond.trans isFirst.symm))
    · obtain ⟨position, version, declared, rfl⟩ := inserted.exists_position
      refine .inr ⟨position, version, declared, ?_⟩
      apply ext_declaration?
      · rw [packages_update, alike.packages]
      · rw [registry_update, alike.registry]
      · rw [size_update, alike.size]
      · intro other
        rw [declaration?_update]
        split
        next here =>
          rw [here, isSecond, isFirst]
          rfl
        next different => exact elsewhere other different

/-- Members and bounds are isolated. Catalogs of one outline are resolved alike, and a catalog with
one more member is resolved to the same catalog and the same diagnostics but for this member. -/
theorem resolve_isolated (options : Options) :
    (∀ first second : Catalog, first.outline = second.outline →
      (first.resolve options).SameOutline (second.resolve options)) ∧
    ∀ (catalog : Catalog) (handle : Handle) (declaration : Declaration) (position : Nat)
      (extra : Member), catalog.declaration? handle = some declaration →
        (catalog.resolve options).GainsOnly handle extra (extra.label declaration.qualifiedName)
          ((catalog.update handle (Declaration.insertMember position extra)).resolve options) := by
  constructor
  · intro first second same
    have run := Lockstep.header.resolve (outline_eq_iff.mp same) options
    exact ⟨run.passes, run.removed, run.dropped, run.converged, outline_eq_iff.mpr run.catalog⟩
  · intro catalog handle declaration position extra found
    have run := (Lockstep.gainsAt handle extra (extra.label declaration.qualifiedName)).resolve
      (alike_insertMember found position extra) options
    exact ⟨run.catalog.eq_update, run.diagnosed⟩

/-- In this history a class with a field is extended by another class with a type parameter. -/
def related : List Command :=
  [.addPackage "p",
    .declare "p" ((Declaration.newClass "A").withMember (.field ⟨"b", .ofText "p.B<p.A>"⟩)),
    .declare "p" (((Declaration.newClass "B").withSupertype "p.A").withTypeParameter ⟨"T", []⟩)]

/-- This method has a bound that names nothing and a parameter that cannot be read. -/
def malformed : Member :=
  .method ⟨"m", [.ofTexts "U" ["p.Missing"]], [⟨"x", .ofText "p.B<"⟩], .ofText "p.B"⟩

/-- A malformed method in front of the field changes nothing else in the run. -/
theorem resolve_isolated_malformed :
    let catalog := Catalog.empty.performAll related
    let larger := catalog.update ⟨0⟩ (Declaration.insertMember 0 malformed)
    (catalog.outline = larger.outline ∧
      (catalog.resolve .standard).SameOutline (larger.resolve .standard)) ∧
    ∃ declaration, catalog.declaration? ⟨0⟩ = some declaration ∧
      (catalog.resolve .standard).GainsOnly ⟨0⟩ malformed
        (malformed.label declaration.qualifiedName) (larger.resolve .standard) := by
  obtain ⟨outlines, gains⟩ := resolve_isolated .standard
  have same : (Catalog.empty.performAll related).outline =
      ((Catalog.empty.performAll related).update ⟨0⟩
        (Declaration.insertMember 0 malformed)).outline := by
    decide +kernel
  have found : (Catalog.empty.performAll related).declaration? ⟨0⟩ =
      some ⟨"A", "p", .ofClass none, [], [], [.field ⟨"b", .ofText "p.B<p.A>"⟩]⟩ := by
    decide +kernel
  exact ⟨⟨same, outlines _ _ same⟩, _, found, gains _ ⟨0⟩ _ 0 malformed found⟩

end Catalog

end TypeGraph
