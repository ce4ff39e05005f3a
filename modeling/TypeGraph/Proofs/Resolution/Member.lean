import TypeGraph.Proofs.Resolution.Slot

/-!
This file says what settling members amounts to. The rounds by kind filter the members in their
order, each by itself, and fill those that stay.
-/

namespace TypeGraph

namespace Member

variable (site : Site)

/-- A member resolves when each of its own slots does; bounds do not count. -/
def Resolves (member : Member) : Prop :=
  ∀ slot ∈ member.ownSlots, slot.Resolves site.lookup (site.scopesOf member)

instance (member : Member) : Decidable (member.Resolves site) :=
  inferInstanceAs (Decidable (∀ slot ∈ member.ownSlots, _))

/-- A filled member has filled slots and, if it is a method, filled bounds. -/
def fillIn (lookup : Lookup) (scopes : List Scope) : Member → Member
  | .field content => .field { content with slot := content.slot.fill lookup scopes }
  | .method content =>
      .method
        { content with
          typeParameters := content.typeParameters.map fun parameter =>
            parameter.fill lookup scopes
          parameters := content.parameters.map fun parameter => parameter.fill lookup scopes
          returns := content.returns.fill lookup scopes }
  | .constructor content =>
      .constructor
        { content with
          parameters := content.parameters.map fun parameter => parameter.fill lookup scopes }

/-- A member is filled in its own scopes. -/
def fill (member : Member) : Member :=
  member.fillIn site.lookup (site.scopesOf member)

section FillIn

variable (lookup : Lookup) (scopes : List Scope) (member : Member)

/-- Filling keeps the kind of a member. -/
@[simp] theorem kind_fillIn : (member.fillIn lookup scopes).kind = member.kind := by
  cases member <;> rfl

/-- Filling keeps the texts that a label is made of. -/
@[simp] theorem render_fillIn : (member.fillIn lookup scopes).render = member.render := by
  cases member <;>
    simp [fillIn, render, FormalParameter.renderAll, FormalParameter.fill, Slot.fill,
      Function.comp_def]

/-- Filling keeps the names that the scopes declare. -/
@[simp] theorem names_typeParameters_fillIn :
    (member.fillIn lookup scopes).typeParameters.map TypeParameter.name =
      member.typeParameters.map TypeParameter.name := by
  cases member <;> simp [fillIn, typeParameters, Function.comp_def]

theorem typeParameters_fillIn :
    (member.fillIn lookup scopes).typeParameters =
      member.typeParameters.map fun parameter => parameter.fill lookup scopes := by
  cases member <;> rfl

/-- Every slot of a member is filled by itself. -/
@[simp] theorem ownSlots_fillIn :
    (member.fillIn lookup scopes).ownSlots =
      member.ownSlots.map fun slot => slot.fill lookup scopes := by
  cases member <;> simp [fillIn, ownSlots, FormalParameter.fill, Function.comp_def]

end FillIn

@[simp] theorem kind_fill (member : Member) : (member.fill site).kind = member.kind :=
  kind_fillIn _ _ member

/-- The scopes of a member depend on its kind, its label and the names of its type parameters. -/
theorem scopesOf_congr {first second : Member} (sameKind : first.kind = second.kind)
    (sameRender : first.render = second.render)
    (sameNames : first.typeParameters.map TypeParameter.name =
      second.typeParameters.map TypeParameter.name) :
    site.scopesOf first = site.scopesOf second := by
  cases first <;> cases second <;> simp only [kind, reduceCtorEq] at sameKind
  case field.field => rfl
  case constructor.constructor => rfl
  case method.method =>
    simp only [typeParameters] at sameNames
    simp only [Site.scopesOf, Site.methodScopes, label, sameRender, sameNames]

/-- The scopes of a member are the same before and after filling. -/
@[simp] theorem scopesOf_fillIn (lookup : Lookup) (scopes : List Scope) (member : Member) :
    site.scopesOf (member.fillIn lookup scopes) = site.scopesOf member :=
  scopesOf_congr site (kind_fillIn lookup scopes member) (render_fillIn lookup scopes member)
    (names_typeParameters_fillIn lookup scopes member)

variable {site}

/-- Settling the bounds of a member fills them. -/
theorem settleBounds_value (member : Member) :
    (member.settleBounds site).value =
      member.withTypeParameters (member.typeParameters.map fun parameter =>
        parameter.fill site.lookup (site.scopesOf member)) := by
  simp only [settleBounds, TypeParameter.settleAll, TypeParameter.settle_eq_fill]

/-- Settling the bounds of a member does not change its scopes. -/
theorem scopesOf_settleBounds (member : Member) :
    site.scopesOf (member.settleBounds site).value = site.scopesOf member := by
  rw [settleBounds_value]
  cases member with
  | field content => rfl
  | constructor content => rfl
  | method content =>
      simp [withTypeParameters, typeParameters, Site.scopesOf, Site.methodScopes, label, render,
        Function.comp_def]

theorem resolves_field_iff {content : Field} :
    Resolves site (.field content) ↔
      content.slot.Resolves site.lookup (site.scopesOf (.field content)) := by
  simp [Resolves, ownSlots]

theorem resolves_constructor_iff {content : Constructor} :
    Resolves site (.constructor content) ↔
      ∀ parameter ∈ content.parameters,
        parameter.slot.Resolves site.lookup (site.scopesOf (.constructor content)) := by
  simp [Resolves, ownSlots]

/-- A method resolves with its parameters and its result; its bounds do not matter. -/
theorem resolves_method_iff {content : Method} :
    Resolves site (.method content) ↔
      (∀ parameter ∈ content.parameters,
        parameter.slot.Resolves site.lookup (site.scopesOf (.method content))) ∧
      content.returns.Resolves site.lookup (site.scopesOf (.method content)) := by
  simp only [Resolves, ownSlots, List.mem_append, List.mem_map, List.mem_singleton]
  constructor
  · intro all
    exact ⟨fun parameter member => all _ (.inl ⟨parameter, member, rfl⟩), all _ (.inr rfl)⟩
  · intro both slot listed
    obtain ⟨parameters, returns⟩ := both
    rcases listed with ⟨parameter, member, rfl⟩ | rfl
    · exact parameters parameter member
    · exact returns

/-- The own slots of a member settle together, or one of them fails. -/
theorem settleOwn_settleBounds_eq_ok_iff {member settled : Member} :
    (member.settleBounds site).value.settleOwn site = .ok settled ↔
      member.Resolves site ∧ settled = member.fill site := by
  have sameScopes : site.scopesOf (member.settleBounds site).value = site.scopesOf member :=
    scopesOf_settleBounds member
  unfold settleOwn
  rw [sameScopes, settleBounds_value]
  cases member with
  | field content =>
      rw [resolves_field_iff]
      simp only [withTypeParameters, fill, fillIn]
      cases result : content.slot.settle site.lookup (site.scopesOf (.field content)) with
      | error unresolved =>
          have fails := Slot.settle_error_iff.mp ⟨unresolved, result⟩
          simp [fails]
      | ok slot =>
          obtain ⟨resolves, rfl⟩ := Slot.settle_eq_ok_iff.mp result
          simp [resolves, eq_comm]
  | constructor content =>
      rw [resolves_constructor_iff]
      simp only [withTypeParameters, fill, fillIn]
      cases result : FormalParameter.settleAll site.lookup (site.scopesOf (.constructor content))
          content.parameters with
      | error unresolved =>
          have fails := FormalParameter.not_all_resolve result
          simp [fails]
      | ok parameters =>
          obtain ⟨all, rfl⟩ := FormalParameter.settleAll_eq_ok_iff.mp result
          rw [and_iff_right all]
          simp [eq_comm]
  | method content =>
      rw [resolves_method_iff]
      simp only [withTypeParameters, typeParameters, fill, fillIn]
      cases result : FormalParameter.settleAll site.lookup (site.scopesOf (.method content))
          content.parameters with
      | error unresolved =>
          have fails := FormalParameter.not_all_resolve result
          simp [fails]
      | ok parameters =>
          obtain ⟨all, rfl⟩ := FormalParameter.settleAll_eq_ok_iff.mp result
          cases last : content.returns.settle site.lookup (site.scopesOf (.method content)) with
          | error unresolved =>
              have fails := Slot.settle_error_iff.mp ⟨unresolved, last⟩
              simp [fails]
          | ok slot =>
              obtain ⟨resolves, rfl⟩ := Slot.settle_eq_ok_iff.mp last
              rw [and_iff_right ⟨all, resolves⟩]
              simp [eq_comm]

/-- A member that resolves is filled, and any other one is removed. -/
theorem settle_value (member : Member) :
    (member.settle site).value =
      if member.Resolves site then some (member.fill site) else none := by
  unfold settle
  dsimp only
  split
  next settled result =>
    obtain ⟨resolves, rfl⟩ := settleOwn_settleBounds_eq_ok_iff.mp result
    simp [resolves]
  next unresolved result =>
    have fails : ¬ member.Resolves site := by
      intro resolves
      rw [settleOwn_settleBounds_eq_ok_iff.mpr ⟨resolves, rfl⟩] at result
      cases result
    simp [fails]

/-- A member outside the settled kinds survives as it is. -/
def Survives (site : Site) (kinds : List MemberKind) (member : Member) : Prop :=
  member.kind ∈ kinds → member.Resolves site

instance (kinds : List MemberKind) (member : Member) : Decidable (member.Survives site kinds) :=
  inferInstanceAs (Decidable (_ → _))

/-- Members of the settled kinds are filled. -/
def fillAmong (site : Site) (kinds : List MemberKind) (member : Member) : Member :=
  if member.kind ∈ kinds then member.fill site else member

@[simp] theorem kind_fillAmong (kinds : List MemberKind) (member : Member) :
    (member.fillAmong site kinds).kind = member.kind := by
  unfold fillAmong
  split
  · exact kind_fill site member
  · rfl

/-- A round keeps the members that survive it and fills those of its kind. -/
theorem settleRound_value (kind : MemberKind) (members : List Member) :
    (settleRound site kind members).value =
      (members.filter fun member => member.Survives site [kind]).map (fillAmong site [kind]) := by
  induction members with
  | nil => rfl
  | cons member rest inductionHypothesis =>
      unfold settleRound
      by_cases sameKind : member.kind = kind
      · by_cases resolves : member.Resolves site
        · simp [sameKind, settle_value, resolves, inductionHypothesis, Survives, fillAmong]
        · simp [sameKind, settle_value, resolves, inductionHypothesis, Survives]
      · simp [sameKind, inductionHypothesis, Survives, fillAmong]

/-- The rounds together filter and fill the members of their kinds, each member by itself. -/
theorem settleRounds_value {kinds : List MemberKind} (distinct : kinds.Nodup)
    (members : List Member) :
    (settleRounds site kinds members).value =
      (members.filter fun member => member.Survives site kinds).map (fillAmong site kinds) := by
  induction kinds generalizing members with
  | nil =>
      have same : fillAmong site [] = id := by
        funext member
        simp [fillAmong]
      have all : members.filter (fun member => member.Survives site []) = members := by
        apply List.filter_eq_self.mpr
        intro member _
        simp [Survives]
      rw [all, same, List.map_id]
      rfl
  | cons kind rest inductionHypothesis =>
      obtain ⟨apart, distinctRest⟩ := List.nodup_cons.mp distinct
      have once : ∀ member : Member,
          (member.fillAmong site [kind]).Survives site rest ↔ member.Survives site rest := by
        intro member
        by_cases sameKind : member.kind = kind
        · simp [Survives, sameKind, apart]
        · simp [fillAmong, sameKind]
      have joined : ∀ member : Member,
          (member.fillAmong site [kind]).fillAmong site rest =
            member.fillAmong site (kind :: rest) := by
        intro member
        by_cases sameKind : member.kind = kind
        · simp [fillAmong, fill, sameKind, apart]
        · simp [fillAmong, sameKind]
      have both : ∀ member : Member, member.Survives site (kind :: rest) ↔
          member.Survives site rest ∧ member.Survives site [kind] := by
        intro member
        simp only [Survives, List.mem_cons, List.not_mem_nil, or_false]
        exact ⟨fun all => ⟨fun later => all (.inr later), fun now => all (.inl now)⟩,
          fun each either => either.elim each.2 each.1⟩
      unfold settleRounds
      dsimp only
      rw [inductionHypothesis distinctRest, settleRound_value, List.filter_map, List.map_map,
        List.filter_filter]
      simp only [Function.comp_def, once, joined, both, Bool.decide_and]

end Member

end TypeGraph
