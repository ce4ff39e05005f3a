import Mathlib.Data.List.Basic
import TypeGraph.Proofs.Resolution.Outline
import TypeGraph.Resolution.Command

/-!
This file specifies a visit that succeeds. The rounds over the members, the list of interfaces and
the batches of bounds together amount to one cut: every text is judged by the catalog before the
visit, and what fails is reported in a fixed order.
-/

namespace TypeGraph

/-! ### Failures -/

/-- The failure of a slot is that of its text. -/
def Slot.failure? (lookup : Lookup) (scopes : List Scope) (slot : Slot) : Option Unresolved :=
  match resolveText lookup scopes slot.text with
  | .error unresolved => some unresolved
  | .ok _ => none

namespace Member

/-- A member fails with the first of its own slots that does; the result of a method comes last. -/
def failure? (site : Site) (member : Member) : Option Unresolved :=
  member.ownSlots.findSome? (Slot.failure? site.lookup (site.scopesOf member))

/-- The bounds of a member that fail now, whether or not it is removed. -/
def boundFailures (site : Site) (member : Member) : List Unresolved :=
  TypeParameter.failures site.lookup (site.scopesOf member) member.typeParameters

/-- A member is reported with its failed bounds first and its own failure last. -/
def problems (site : Site) (member : Member) : List Problem :=
  (member.boundFailures site).map (.boundUnresolved (member.label site.name)) ++
    (member.failure? site).toList.map fun entry =>
      .memberRemoved (member.label site.name) entry.cause

/-- Members are taken kind by kind, and those of one kind stay in their order. -/
def inRounds (kinds : List MemberKind) (members : List Member) : List Member :=
  kinds.flatMap fun kind => members.filter fun member => member.kind = kind

end Member

namespace Declaration

/-- The bounds that fail in a visit are those of the declaration and those of the members that are
settled. -/
def boundFailures (lookup : Lookup) (handle : Handle) (declaration : Declaration) :
    List Unresolved :=
  let site := declaration.site lookup handle
  TypeParameter.failures lookup [site.scope] declaration.typeParameters ++
    (Member.inRounds declaration.kind.settledMembers declaration.members).flatMap
      (Member.boundFailures site)

/-- A declaration is reported with its own bounds first, its interfaces next and its members
last. -/
def problems (lookup : Lookup) (handle : Handle) (declaration : Declaration) : List Problem :=
  let site := declaration.site lookup handle
  (TypeParameter.failures lookup [site.scope] declaration.typeParameters).map
      (.boundUnresolved site.name) ++
    (declaration.interfaces.filterMap (Slot.failure? lookup [site.scope])).map
      (.interfaceDropped site.name) ++
    (Member.inRounds declaration.kind.settledMembers declaration.members).flatMap
      (Member.problems site)

/-- A declaration is cut down to another one when its superclass resolves and every other part is
kept, in its order, exactly if it resolves. Under the strict policy every interface resolves. Bounds
are kept in any case: one that was marked before stays as it is, and any other one is filled or
cleared and marked. The tally counts what is lost, and the diagnostics say so in order. -/
structure CutDownTo (lookup : Lookup) (policy : InterfacePolicy) (handle : Handle)
    (before after : Declaration) (tally : Tally) (diagnostics : List Diagnostic) : Prop where
  names : after.name = before.name ∧ after.package = before.package
  stands : before.Stands lookup policy handle
  kind : after.kind = before.kind.fill (before.site lookup handle)
  bounds : after.typeParameters = before.typeParameters.map fun parameter =>
    parameter.fill lookup [(before.site lookup handle).scope]
  interfaces : after.interfaces = (before.interfaces.filter fun slot =>
    slot.Resolves lookup [(before.site lookup handle).scope]).map fun slot =>
      slot.fill lookup [(before.site lookup handle).scope]
  members : after.members = (before.members.filter fun member =>
    member.Survives (before.site lookup handle) before.kind.settledMembers).map
      (Member.fillAmong (before.site lookup handle) before.kind.settledMembers)
  removedMembers : tally.removedMembers + after.members.length = before.members.length
  droppedInterfaces : tally.droppedInterfaces + after.interfaces.length = before.interfaces.length
  unresolvedBounds : tally.unresolvedBounds = (before.boundFailures lookup handle).length
  diagnostics : diagnostics = (before.problems lookup handle).map Problem.diagnostic

end Declaration

section Failures

variable {lookup : Lookup} {scopes : List Scope} {site : Site}

/-- Settling a slot fails with the first problem of its text. -/
theorem Slot.settle_eq_error_iff {slot : Slot} {unresolved : Unresolved} :
    slot.settle lookup scopes = .error unresolved ↔
      slot.failure? lookup scopes = some unresolved := by
  unfold settle failure?
  cases resolveText lookup scopes slot.text <;> simp

/-- A slot without a failure resolves. -/
theorem Slot.failure?_eq_none_iff {slot : Slot} :
    slot.failure? lookup scopes = none ↔ slot.Resolves lookup scopes := by
  unfold failure? Resolves
  cases resolveText lookup scopes slot.text <;> simp

/-- Formal parameters fail with the first one that does. -/
theorem FormalParameter.settleAll_eq_error_iff {parameters : List FormalParameter}
    {unresolved : Unresolved} :
    settleAll lookup scopes parameters = .error unresolved ↔
      (parameters.map FormalParameter.slot).findSome? (Slot.failure? lookup scopes) =
        some unresolved := by
  induction parameters with
  | nil => simp [settleAll]
  | cons parameter rest inductionHypothesis =>
      unfold settleAll
      rw [List.map_cons, List.findSome?_cons]
      cases first : parameter.slot.settle lookup scopes with
      | error failure => simp [Slot.settle_eq_error_iff.mp first]
      | ok slot =>
          have resolves := (Slot.settle_eq_ok_iff.mp first).1
          rw [Slot.failure?_eq_none_iff.mpr resolves, ← inductionHypothesis]
          cases settleAll lookup scopes rest <;> simp

/-- Failed bounds are reported as warnings of their holder. -/
theorem TypeParameter.problems_failureEvents (holder : String) (failures : List Unresolved) :
    (failureEvents holder failures).filterMap Event.problem? =
      failures.map (.boundUnresolved holder) := by
  simp [failureEvents, List.filterMap_map, Function.comp_def, Event.problem?]

namespace Member

/-- A member without a failure resolves. -/
theorem failure?_eq_none_iff {member : Member} :
    member.failure? site = none ↔ member.Resolves site := by
  simp only [failure?, List.findSome?_eq_none_iff, Slot.failure?_eq_none_iff, Resolves]

/-- Settling a member stops at its failure. -/
theorem settleOwn_settleBounds_eq_error_iff {member : Member} {unresolved : Unresolved} :
    (member.settleBounds site).value.settleOwn site = .error unresolved ↔
      member.failure? site = some unresolved := by
  have sameScopes : site.scopesOf (member.settleBounds site).value = site.scopesOf member :=
    scopesOf_settleBounds member
  unfold settleOwn
  rw [sameScopes, settleBounds_value]
  cases member with
  | field content =>
      simp only [withTypeParameters, failure?, ownSlots, List.findSome?_cons, List.findSome?_nil]
      cases result : content.slot.settle site.lookup (site.scopesOf (.field content)) with
      | error failure => simp [Slot.settle_eq_error_iff.mp result]
      | ok slot =>
          simp [Slot.failure?_eq_none_iff.mpr (Slot.settle_eq_ok_iff.mp result).1]
  | constructor content =>
      simp only [withTypeParameters, failure?, ownSlots]
      rw [← FormalParameter.settleAll_eq_error_iff]
      cases FormalParameter.settleAll site.lookup (site.scopesOf (.constructor content))
          content.parameters <;> simp
  | method content =>
      simp only [withTypeParameters, failure?, ownSlots, List.findSome?_append,
        List.findSome?_cons, List.findSome?_nil]
      cases result : FormalParameter.settleAll site.lookup (site.scopesOf (.method content))
          content.parameters with
      | error failure => simp [FormalParameter.settleAll_eq_error_iff.mp result]
      | ok parameters =>
          have passed : (content.parameters.map FormalParameter.slot).findSome?
              (Slot.failure? site.lookup (site.scopesOf (.method content))) = none := by
            rw [List.findSome?_eq_none_iff, List.forall_mem_map]
            intro parameter listed
            have resolve := (FormalParameter.settleAll_eq_ok_iff.mp result).1
            exact Slot.failure?_eq_none_iff.mpr (resolve parameter listed)
          rw [passed, Option.none_or]
          cases last : content.returns.settle site.lookup (site.scopesOf (.method content)) with
          | error failure => simp [Slot.settle_eq_error_iff.mp last]
          | ok slot => simp [Slot.failure?_eq_none_iff.mpr (Slot.settle_eq_ok_iff.mp last).1]

variable (site)

/-- A settled member reports its problems and counts them. -/
theorem settle_problems (member : Member) :
    (member.settle site).events.filterMap Event.problem? = member.problems site ∧
      (member.settle site).tally =
        ⟨(member.failure? site).toList.length, 0, (member.boundFailures site).length⟩ := by
  have bounds : (member.settleBounds site).events.filterMap Event.problem? =
      (member.boundFailures site).map (.boundUnresolved (member.label site.name)) :=
    TypeParameter.problems_failureEvents _ _
  unfold settle problems
  dsimp only
  split
  next settled result =>
    obtain ⟨resolves, -⟩ := settleOwn_settleBounds_eq_ok_iff.mp result
    rw [failure?_eq_none_iff.mpr resolves, bounds]
    exact ⟨(List.append_nil _).symm, rfl⟩
  next unresolved result =>
    rw [settleOwn_settleBounds_eq_error_iff.mp result, List.filterMap_append, bounds]
    exact ⟨rfl, Tally.ext (Nat.zero_add 1) rfl rfl⟩

/-- A settled member is kept or counted as removed. -/
theorem settle_removedMembers (member : Member) :
    (member.settle site).tally.removedMembers + (member.settle site).value.toList.length = 1 := by
  obtain ⟨-, counted⟩ := settle_problems site member
  rw [counted, settle_value]
  cases failed : member.failure? site with
  | none => simp [failure?_eq_none_iff.mp failed]
  | some unresolved =>
      have fails : ¬ member.Resolves site := by
        rw [← failure?_eq_none_iff, failed]
        exact Option.some_ne_none _
      simp [fails]

/-! ### Rounds -/

variable {kind other : MemberKind} {kinds : List MemberKind}

/-- A round reports and counts the members of its kind, one after the other. -/
theorem settleRound_problems (kind : MemberKind) (members : List Member) :
    (settleRound site kind members).events.filterMap Event.problem? =
        (members.filter fun member => member.kind = kind).flatMap (problems site) ∧
      (settleRound site kind members).tally.unresolvedBounds =
        ((members.filter fun member => member.kind = kind).flatMap
          (boundFailures site)).length := by
  induction members with
  | nil => exact ⟨rfl, rfl⟩
  | cons member rest inductionHypothesis =>
      obtain ⟨events, tally⟩ := inductionHypothesis
      obtain ⟨first, counted⟩ := settle_problems site member
      unfold settleRound
      by_cases sameKind : member.kind = kind
      · simp [sameKind, events, tally, first, counted]
      · simp [sameKind, events, tally]

/-- A round loses exactly the members that it counts. -/
theorem settleRound_removedMembers (kind : MemberKind) (members : List Member) :
    (settleRound site kind members).tally.removedMembers +
        (settleRound site kind members).value.length = members.length := by
  induction members with
  | nil => rfl
  | cons member rest inductionHypothesis =>
      have first := settle_removedMembers site member
      unfold settleRound
      by_cases sameKind : member.kind = kind
      · simp only [if_pos sameKind, Tally.removedMembers_add, List.length_append,
          List.length_cons]
        omega
      · simp only [if_neg sameKind, List.length_cons]
        omega

/-- A round passes over the members of every other kind. -/
theorem filter_settleRound (different : other ≠ kind) (members : List Member) :
    ((settleRound site kind members).value.filter fun member => member.kind = other) =
      members.filter fun member => member.kind = other := by
  induction members with
  | nil => rfl
  | cons member rest inductionHypothesis =>
      unfold settleRound
      by_cases sameKind : member.kind = kind
      · by_cases resolves : member.Resolves site
        · simp [sameKind, settle_value, resolves, inductionHypothesis, different.symm]
        · simp [sameKind, settle_value, resolves, inductionHypothesis, different.symm]
      · simp [sameKind, List.filter_cons, inductionHypothesis]

/-- A round leaves the members of the later rounds as they are. -/
theorem inRounds_settleRound (absent : kind ∉ kinds) (members : List Member) :
    inRounds kinds (settleRound site kind members).value = inRounds kinds members := by
  refine List.flatMap_congr fun other listed => filter_settleRound site ?_ members
  rintro rfl
  exact absent listed

/-- The rounds report and count the members kind by kind. -/
theorem settleRounds_problems (distinct : kinds.Nodup) (members : List Member) :
    (settleRounds site kinds members).events.filterMap Event.problem? =
        (inRounds kinds members).flatMap (problems site) ∧
      (settleRounds site kinds members).tally.unresolvedBounds =
        ((inRounds kinds members).flatMap (boundFailures site)).length := by
  induction kinds generalizing members with
  | nil => exact ⟨rfl, rfl⟩
  | cons kind rest inductionHypothesis =>
      obtain ⟨absent, distinctRest⟩ := List.nodup_cons.mp distinct
      obtain ⟨events, tally⟩ := settleRound_problems site kind members
      obtain ⟨laterEvents, laterTally⟩ :=
        inductionHypothesis distinctRest (settleRound site kind members).value
      rw [inRounds_settleRound site absent] at laterEvents laterTally
      unfold settleRounds
      simp only [List.filterMap_append, events, laterEvents, Tally.unresolvedBounds_add, tally,
        laterTally, inRounds, List.flatMap_cons, List.flatMap_append, List.length_append, and_self]

/-- The rounds count a removal for every member that they do not return. -/
theorem settleRounds_removedMembers (kinds : List MemberKind) (members : List Member) :
    (settleRounds site kinds members).tally.removedMembers +
        (settleRounds site kinds members).value.length = members.length := by
  induction kinds generalizing members with
  | nil => exact Nat.zero_add _
  | cons kind rest inductionHypothesis =>
      have first := settleRound_removedMembers site kind members
      have later := inductionHypothesis (settleRound site kind members).value
      unfold settleRounds
      simp only [Tally.removedMembers_add]
      omega

end Member

/-! ### Declarations -/

/-- Interfaces that settle are reported and counted by those that are dropped. -/
theorem Slot.settleInterfaces_problems {policy : InterfacePolicy} {slots : List Slot}
    {settled : Settled (List Slot)} (result : settleInterfaces site policy slots = .ok settled) :
    settled.events.filterMap Event.problem? =
        (slots.filterMap (Slot.failure? site.lookup [site.scope])).map
          (.interfaceDropped site.name) ∧
      ∃ dropped, settled.tally = ⟨0, dropped, 0⟩ ∧
        dropped + settled.value.length = slots.length := by
  induction slots generalizing settled with
  | nil =>
      cases result
      exact ⟨rfl, 0, rfl, rfl⟩
  | cons slot rest inductionHypothesis =>
      unfold settleInterfaces at result
      cases first : slot.settle site.lookup [site.scope] with
      | ok filled =>
          rw [first] at result
          cases others : settleInterfaces site policy rest with
          | error unresolved => simp [others] at result
          | ok later =>
              obtain ⟨events, dropped, tally, counted⟩ := inductionHypothesis others
              simp only [others, Except.ok.injEq] at result
              subst result
              have passed := Slot.failure?_eq_none_iff.mpr (Slot.settle_eq_ok_iff.mp first).1
              rw [List.filterMap_cons_none passed]
              refine ⟨events, dropped, tally, ?_⟩
              rw [List.length_cons, List.length_cons, ← counted, Nat.add_assoc]
      | error unresolved =>
          rw [first] at result
          cases policy with
          | removeDeclaration => simp at result
          | dropEntry =>
              cases others : settleInterfaces site .dropEntry rest with
              | error other => simp [others] at result
              | ok later =>
                  obtain ⟨events, dropped, tally, counted⟩ := inductionHypothesis others
                  simp only [others, Except.ok.injEq] at result
                  subst result
                  have failed := Slot.settle_eq_error_iff.mp first
                  rw [List.filterMap_cons_some failed, List.map_cons, ← events]
                  refine ⟨rfl, 1 + dropped, ?_, ?_⟩
                  · rw [tally]
                    rfl
                  · change 1 + dropped + later.value.length = rest.length + 1
                    omega

end Failures

/-- A declaration that settles is cut down. -/
theorem Declaration.settle_cutDownTo {lookup : Lookup} {policy : InterfacePolicy}
    {handle : Handle} {declaration settled : Declaration} {tally : Tally}
    (result : (declaration.settle lookup policy handle).result = .ok (settled, tally)) :
    declaration.CutDownTo lookup policy handle settled tally
      (Event.diagnostics (declaration.settle lookup policy handle).events) := by
  obtain ⟨stands, rfl⟩ := settle_result_eq_ok_iff.mp ⟨tally, result⟩
  obtain ⟨memberEvents, memberBounds⟩ := Member.settleRounds_problems
    (declaration.site lookup handle) declaration.kind.nodup_settledMembers declaration.members
  have memberCount := Member.settleRounds_removedMembers
    (declaration.site lookup handle) declaration.kind.settledMembers declaration.members
  unfold settle at result ⊢
  dsimp only at result ⊢
  cases kind : declaration.kind.settle (declaration.site lookup handle) with
  | error unresolved => simp [kind] at result
  | ok settledKind =>
      cases entries : Slot.settleInterfaces (declaration.site lookup handle) policy
          declaration.interfaces with
      | error unresolved => simp [kind, entries] at result
      | ok interfaces =>
          obtain ⟨interfaceEvents, dropped, interfaceTally, interfaceCount⟩ :=
            Slot.settleInterfaces_problems entries
          simp only [kind, entries, Except.ok.injEq, Prod.mk.injEq] at result ⊢
          obtain ⟨same, rfl⟩ := result
          -- the settled parts are those of the filled declaration, so they have its lengths
          have interfaceTotal : declaration.interfaces.length = dropped +
              (declaration.fill lookup handle).interfaces.length := by
            rw [← same, interfaceCount]
          have memberTotal : declaration.members.length = (Member.settleRounds
              (declaration.site lookup handle) declaration.kind.settledMembers
                declaration.members).tally.removedMembers +
              (declaration.fill lookup handle).members.length := by
            rw [← same, memberCount]
          constructor
          case names => exact ⟨rfl, rfl⟩
          case stands => exact stands
          case kind => rfl
          case bounds => rfl
          case interfaces => rfl
          case members => rfl
          case removedMembers =>
            simp [interfaceTally, memberTotal, settleBounds, TypeParameter.settleAll]
          case droppedInterfaces =>
            simp [interfaceTally, interfaceTotal, settleBounds, TypeParameter.settleAll]
          case unresolvedBounds =>
            simp [interfaceTally, memberBounds, settleBounds, TypeParameter.settleAll,
              boundFailures]
            rfl
          case diagnostics =>
            rw [Event.diagnostics, List.filterMap_append, List.filterMap_append, interfaceEvents,
              memberEvents, settleBounds, TypeParameter.settleAll,
              TypeParameter.problems_failureEvents]
            rfl

namespace Catalog

variable {catalog : Catalog} {policy : InterfacePolicy} {handle : Handle}
  {declaration : Declaration}

/-- One declaration is replaced, and everything else stays as it is. -/
structure ReplacesOnly (before : Catalog) (handle : Handle) (settled : Declaration)
    (after : Catalog) : Prop where
  packages : after.packages = before.packages
  registry : after.registry = before.registry
  size : after.arena.size = before.arena.size
  places : ∀ other, after.declaration? other =
    if other = handle then some settled else before.declaration? other

/-- An update replaces one declaration and nothing else. -/
theorem update_replacesOnly (found : catalog.declaration? handle = some declaration)
    (settled : Declaration) :
    catalog.ReplacesOnly handle settled (catalog.update handle fun _ => settled) where
  packages := packages_update _ _ _
  registry := registry_update _ _ _
  size := size_update _ _ _
  places := by
    intro other
    rw [declaration?_update, found, Option.map_some]

/-- A visit of a live declaration succeeds exactly when the declaration stands. Then it replaces the
declaration by what it is cut down to in the catalog before the visit, and nothing else. -/
theorem visit_cutDownTo (found : catalog.declaration? handle = some declaration) :
    ((∃ tally, (catalog.visit policy handle).result = .ok tally) ↔
        declaration.Stands catalog.lookup? policy handle) ∧
      ∀ tally, (catalog.visit policy handle).result = .ok tally →
        ∃ settled,
          catalog.ReplacesOnly handle settled (catalog.visit policy handle).catalog ∧
          declaration.CutDownTo catalog.lookup? policy handle settled tally
            (Event.diagnostics (catalog.visit policy handle).events) := by
  simp only [visit, found]
  cases result : (declaration.settle catalog.lookup? policy handle).result with
  | error failure =>
      refine ⟨iff_of_false (by simp) ?_, by simp⟩
      intro stands
      obtain ⟨tally, succeeds⟩ := Declaration.settle_result_eq_ok_iff.mpr ⟨stands, rfl⟩
      rw [result] at succeeds
      cases succeeds
  | ok pair =>
      obtain ⟨settled, tally⟩ := pair
      have stands := (Declaration.settle_result_eq_ok_iff.mp ⟨tally, result⟩).1
      refine ⟨iff_of_true ⟨tally, rfl⟩ stands, ?_⟩
      intro counted same
      obtain rfl := Except.ok.inj same
      exact ⟨settled, update_replacesOnly found settled, Declaration.settle_cutDownTo result⟩

/-- In this history a class has parts of every kind. Some of its bounds, interfaces and members
have texts that lead nowhere, and one bound was marked before. -/
def motley : List Command :=
  [.addPackage "p", .declare "p" (.newInterface "I"),
    .declare "p"
      { name := "C"
        package := "p"
        kind := .ofClass (some (.ofText "p.C"))
        typeParameters := [⟨"T", [.ofText "p.C<T>", ⟨.ofText "q.Old", true⟩, .ofText "q.Gone"]⟩]
        interfaces := [.ofText "q.First", .ofText "p.I", .ofText "q.Second"]
        members :=
          [.method ⟨"lost", [.ofTexts "S" ["q.Gone"]], [⟨"x", .ofText "S"⟩],
              .ofText "q.Missing"⟩,
            .constructor ⟨"C", [⟨"t", .ofText "T[]"⟩]⟩, .field ⟨"kept", .ofText "T"⟩,
            .constructor ⟨"C", [⟨"x", .ofText "q.Missing"⟩]⟩,
            .field ⟨"gone", .ofText "q.Missing"⟩,
            .method ⟨"kept", [.ofTexts "S" ["q.Gone"]], [], .ofText "S"⟩] }]

/-- The class loses three members, two interfaces and three bounds, and the reports come in order.
-/
theorem visit_cutDownTo_motley :
    let catalog := Catalog.empty.performAll motley
    let visit := catalog.visit .dropEntry ⟨1⟩
    (∃ declaration, catalog.declaration? ⟨1⟩ = some declaration ∧
        ∃ settled, catalog.ReplacesOnly ⟨1⟩ settled visit.catalog ∧
          declaration.CutDownTo catalog.lookup? .dropEntry ⟨1⟩ settled ⟨3, 2, 3⟩
            (Event.diagnostics visit.events)) ∧
      visit.result = .ok ⟨3, 2, 3⟩ ∧
      (Event.diagnostics visit.events).map (fun diagnostic =>
          (diagnostic.severity, diagnostic.context)) =
        [(.warning, "p.C"), (.error, "p.C"), (.error, "p.C"), (.error, "p.C#gone"),
          (.warning, "p.C#lost(S)"), (.error, "p.C#lost(S)"), (.warning, "p.C#kept()"),
          (.error, "p.C#C(q.Missing)")] := by
  intro catalog visit
  have live : catalog.isLive ⟨1⟩ = true := by decide +kernel
  have succeeds : visit.result = .ok ⟨3, 2, 3⟩ := by decide +kernel
  obtain ⟨declaration, found⟩ := Option.isSome_iff_exists.mp live
  refine ⟨⟨declaration, found, (visit_cutDownTo found).2 _ succeeds⟩, succeeds, ?_⟩
  decide +kernel

end Catalog

end TypeGraph
