import TypeGraph.Proofs.Resolution.Declaration
import TypeGraph.Proofs.Resolution.Signature

/-!
This file compares fillings through two lookups. What resolves through the smaller lookup resolves
through the larger one, so a later filling through the smaller lookup absorbs an earlier one.
-/

namespace TypeGraph

section Slots

variable {smaller larger : Lookup} {scopes : List Scope}

/-- Whether a slot resolves depends on its text, which filling keeps. -/
@[simp] theorem Slot.resolves_fill_iff (slot : Slot) (others : List Scope) :
    (slot.fill larger others).Resolves smaller scopes ↔ slot.Resolves smaller scopes :=
  Iff.rfl

/-- A later filling overwrites an earlier one. -/
@[simp] theorem Slot.fill_fill (slot : Slot) (others : List Scope) :
    (slot.fill larger others).fill smaller scopes = slot.fill smaller scopes := rfl

/-- What a lookup filled into a formal parameter is overwritten by the next filling. -/
theorem FormalParameter.fill_fill (parameter : FormalParameter) :
    (parameter.fill larger scopes).fill smaller scopes = parameter.fill smaller scopes := rfl

/-- A slot that resolves through a lookup resolves through every larger one. -/
theorem Slot.Resolves.mono (within : smaller.Within larger) {slot : Slot}
    (resolves : slot.Resolves smaller scopes) : slot.Resolves larger scopes :=
  resolveText_isOk_mono within resolves

/-- Filling a slot that does not resolve empties it. -/
theorem Slot.fill_of_not_resolves {slot : Slot} (fails : ¬ slot.Resolves smaller scopes) :
    slot.fill smaller scopes = ⟨slot.text, none⟩ := by
  unfold Slot.fill
  cases found : resolveText smaller scopes slot.text with
  | ok reference => exact absurd ⟨reference, found⟩ fails
  | error unresolved => rfl

/-- A mark that the larger lookup leaves is one that the smaller lookup would leave. -/
theorem Bound.fill_fill (within : smaller.Within larger) (bound : Bound) :
    (bound.fill larger scopes).fill smaller scopes = bound.fill smaller scopes := by
  by_cases marked : bound.unresolvable
  · simp [Bound.fill, marked]
  · by_cases resolves : bound.slot.Resolves larger scopes
    · simp [Bound.fill, marked, resolves]
    · have fails : ¬ bound.slot.Resolves smaller scopes :=
        fun resolvesSmaller => resolves (resolvesSmaller.mono within)
      simp [Bound.fill, marked, resolves, fails, Slot.fill_of_not_resolves]

/-- A filling through the smaller lookup absorbs one of the bounds through the larger one. -/
theorem TypeParameter.fill_fill (within : smaller.Within larger) (parameter : TypeParameter) :
    (parameter.fill larger scopes).fill smaller scopes = parameter.fill smaller scopes := by
  simp [TypeParameter.fill, Function.comp_def, Bound.fill_fill within]

end Slots

/-- A site can be seen through another lookup. -/
def Site.through (site : Site) (lookup : Lookup) : Site :=
  { site with lookup := lookup }

@[simp] theorem Site.scopesOf_through (site : Site) (lookup : Lookup) (member : Member) :
    (site.through lookup).scopesOf member = site.scopesOf member := by
  cases member <;> rfl

namespace Member

variable {site : Site} {smaller larger : Lookup} {kinds : List MemberKind}

/-- A member that resolves through a lookup resolves through every larger one. -/
theorem Resolves.mono (within : smaller.Within larger) {member : Member}
    (resolves : member.Resolves (site.through smaller)) :
    member.Resolves (site.through larger) := by
  intro slot own
  have found := resolves slot own
  rw [Site.scopesOf_through] at found ⊢
  exact found.mono within

/-- What survives the rounds under a lookup survives them under every larger one. -/
theorem Survives.mono (site : Site) (within : smaller.Within larger) {member : Member}
    (survives : member.Survives (site.through smaller) kinds) :
    member.Survives (site.through larger) kinds :=
  fun settled => (survives settled).mono within

@[simp] theorem resolves_fill_iff {member : Member} :
    (member.fill (site.through larger)).Resolves (site.through smaller) ↔
      member.Resolves (site.through smaller) := by
  unfold Resolves fill
  rw [scopesOf_fillIn, ownSlots_fillIn, List.forall_mem_map]
  simp only [Site.scopesOf_through, Slot.resolves_fill_iff]

/-- A filling of a member through the smaller lookup absorbs one through the larger one. -/
theorem fillIn_fillIn (within : smaller.Within larger) (scopes : List Scope) (member : Member) :
    (member.fillIn larger scopes).fillIn smaller scopes = member.fillIn smaller scopes := by
  cases member <;>
    simp [fillIn, Function.comp_def, TypeParameter.fill_fill within, FormalParameter.fill_fill]

theorem fill_fill (within : smaller.Within larger) (member : Member) :
    (member.fill (site.through larger)).fill (site.through smaller) =
      member.fill (site.through smaller) := by
  unfold fill
  rw [scopesOf_fillIn, Site.scopesOf_through, Site.scopesOf_through]
  exact fillIn_fillIn within (site.scopesOf member) member

/-- Whether a member survives does not depend on what was filled in before. -/
@[simp] theorem survives_fillAmong_iff (site : Site) {member : Member} :
    (member.fillAmong (site.through larger) kinds).Survives (site.through smaller) kinds ↔
      member.Survives (site.through smaller) kinds := by
  unfold Survives
  rw [kind_fillAmong]
  apply imp_congr_right
  intro settled
  simp only [fillAmong, settled, if_true, resolves_fill_iff]

/-- Members of every kind absorb an earlier filling, whether their rounds come or not. -/
theorem fillAmong_fillAmong (site : Site) (within : smaller.Within larger) (member : Member) :
    (member.fillAmong (site.through larger) kinds).fillAmong (site.through smaller) kinds =
      member.fillAmong (site.through smaller) kinds := by
  by_cases settled : member.kind ∈ kinds
  · simp only [fillAmong, settled, if_true, kind_fill, fill_fill within]
  · simp [fillAmong, settled]

end Member

namespace Declaration

variable {smaller larger : Lookup} {policy : InterfacePolicy} {handle : Handle}

/-- A filled declaration shows its parts the same name and the same type parameters. -/
theorem site_fill (declaration : Declaration) (first second : Lookup) (handle : Handle) :
    (declaration.fill first handle).site second handle = declaration.site second handle := by
  simp [site, fill, qualifiedName, Function.comp_def]

/-- A declaration that stands under a lookup stands under every larger one. -/
theorem Stands.mono (within : smaller.Within larger) {declaration : Declaration}
    (stands : declaration.Stands smaller policy handle) :
    declaration.Stands larger policy handle :=
  ⟨fun slot listed => (stands.1 slot listed).mono within,
    fun strict slot listed => (stands.2 strict slot listed).mono within⟩

/-- A declaration that stood once stands later exactly when its original does. -/
theorem stands_fill_iff {declaration : Declaration}
    (stood : declaration.Stands larger policy handle) :
    (declaration.fill larger handle).Stands smaller policy handle ↔
      declaration.Stands smaller policy handle := by
  unfold Stands
  rw [superclass?_fill, site_fill]
  dsimp only
  apply and_congr
  · cases declaration.superclass? <;> simp
  · apply imp_congr_right
    intro strict
    have kept : (declaration.interfaces.filter fun slot =>
        slot.Resolves larger [(declaration.site larger handle).scope]) =
          declaration.interfaces :=
      List.filter_eq_self.mpr fun slot listed => decide_eq_true (stood.2 strict slot listed)
    simp only [fill, kept, List.forall_mem_map]
    exact Iff.rfl

/-- Filtering a list twice comes to the stricter filter. -/
theorem filter_map_filter_map {A : Type} (items : List A) (first second : A → A)
    (looser stricter : A → Prop) [DecidablePred looser] [DecidablePred stricter]
    (keeps : ∀ item, stricter (first item) ↔ stricter item)
    (implies : ∀ item, stricter item → looser item)
    (absorbs : ∀ item, second (first item) = second item) :
    (((items.filter fun item => looser item).map first).filter fun item => stricter item).map
        second =
      (items.filter fun item => stricter item).map second := by
  simp only [List.filter_map, List.filter_filter, List.map_map, Function.comp_def, keeps, absorbs]
  congr 1
  apply List.filter_congr
  intro item _
  by_cases holds : stricter item
  · simp [holds, implies item holds]
  · simp [holds]

/-- A later filling through a smaller lookup absorbs an earlier one. -/
theorem fill_fill (within : smaller.Within larger) (declaration : Declaration) :
    (declaration.fill larger handle).fill smaller handle = declaration.fill smaller handle := by
  have sameSite := site_fill declaration larger smaller handle
  have sameKinds : (declaration.fill larger handle).kind.settledMembers =
      declaration.kind.settledMembers := DeclarationKind.settledMembers_fill _ _
  have kind : (declaration.kind.fill (declaration.site larger handle)).fill
      (declaration.site smaller handle) =
        declaration.kind.fill (declaration.site smaller handle) := by
    cases declaration.kind with
    | ofClass superclass => cases superclass <;> rfl
    | ofInterface => rfl
  have typeParameters : (declaration.fill larger handle).typeParameters.map (fun parameter =>
      parameter.fill smaller [(declaration.site smaller handle).scope]) =
        (declaration.fill smaller handle).typeParameters := by
    simp only [fill, List.map_map]
    apply List.map_congr_left
    intro parameter _
    exact TypeParameter.fill_fill within parameter
  have interfaces : ((declaration.fill larger handle).interfaces.filter (fun slot =>
      slot.Resolves smaller [(declaration.site smaller handle).scope])).map (fun slot =>
        slot.fill smaller [(declaration.site smaller handle).scope]) =
      (declaration.fill smaller handle).interfaces :=
    filter_map_filter_map declaration.interfaces _ _ _ _ (fun slot => slot.resolves_fill_iff _)
      (fun _ resolves => Slot.Resolves.mono within resolves) (fun slot => slot.fill_fill _)
  have members : ((declaration.fill larger handle).members.filter (fun member =>
      member.Survives (declaration.site smaller handle) declaration.kind.settledMembers)).map
        (Member.fillAmong (declaration.site smaller handle) declaration.kind.settledMembers) =
      (declaration.fill smaller handle).members :=
    filter_map_filter_map declaration.members _ _ _ _
      (fun _ => Member.survives_fillAmong_iff (declaration.site larger handle))
      (fun _ survives => Member.Survives.mono (declaration.site larger handle) within survives)
      (Member.fillAmong_fillAmong (declaration.site larger handle) within)
  unfold fill at sameSite sameKinds typeParameters interfaces members ⊢
  dsimp only at sameSite sameKinds typeParameters interfaces members ⊢
  rw [sameSite, sameKinds, kind, typeParameters, interfaces, members]

end Declaration

end TypeGraph
