import TypeGraph.Proofs.Resolution.Member
import TypeGraph.Report.Diagnostic

/-!
This file settles a list of members next to the list without one of them. The extra member leaves
its siblings as they are, and everything more that is reported stands under its label.
-/

namespace TypeGraph

/-! ### Declared content -/

/-- The declared part of a type parameter has neither references nor marks. -/
def TypeParameter.declared (parameter : TypeParameter) : TypeParameter :=
  ⟨parameter.name, parameter.bounds.map fun bound => .ofText bound.slot.text⟩

/-- The declared part of a formal parameter has no reference. -/
def FormalParameter.declared (parameter : FormalParameter) : FormalParameter :=
  ⟨parameter.name, .ofText parameter.slot.text⟩

namespace Member

/-- The declared part of a member is what resolution leaves alone: its names and its texts. -/
def declared : Member → Member
  | .field content => .field { content with slot := .ofText content.slot.text }
  | .method content =>
      .method
        { content with
          typeParameters := content.typeParameters.map TypeParameter.declared
          parameters := content.parameters.map FormalParameter.declared
          returns := .ofText content.returns.text }
  | .constructor content =>
      .constructor { content with parameters := content.parameters.map FormalParameter.declared }

theorem declared_fill (site : Site) (member : Member) :
    (member.fill site).declared = member.declared := by
  have parameters : ∀ (lookup : Lookup) (scopes : List Scope) (parameters : List TypeParameter),
      (parameters.map fun parameter => parameter.fill lookup scopes).map TypeParameter.declared =
        parameters.map TypeParameter.declared := by
    intro lookup scopes parameters
    rw [List.map_map]
    apply List.map_congr_left
    intro parameter _
    simp only [Function.comp_apply, TypeParameter.declared, TypeParameter.fill, List.map_map,
      TypeParameter.mk.injEq, true_and]
    apply List.map_congr_left
    intro bound _
    simp only [Function.comp_apply, Bound.fill]
    split <;> rfl
  cases member with
  | field => rfl
  | constructor =>
      simp [fill, fillIn, declared, FormalParameter.declared, FormalParameter.fill, Slot.fill]
  | method =>
      simp only [fill, fillIn, declared, parameters]
      simp [FormalParameter.declared, FormalParameter.fill, Slot.fill]

theorem render_declared (member : Member) : member.declared.render = member.render := by
  cases member <;>
    simp [declared, render, FormalParameter.renderAll, FormalParameter.declared, Slot.ofText,
      Function.comp_def]

/-- Versions of one member have one label. -/
theorem label_congr {first second : Member} (same : first.declared = second.declared)
    (holder : String) : first.label holder = second.label holder := by
  rw [label, label, ← render_declared first, ← render_declared second, same]

/-- In the longer list one version of the extra member stands between the members of the shorter. -/
inductive Inserted (extra : Member) : List Member → List Member → Prop where
  | here (version : Member) (rest : List Member) (same : version.declared = extra.declared) :
      Inserted extra rest (version :: rest)
  | later (member : Member) {fewer more : List Member} (inserted : Inserted extra fewer more) :
      Inserted extra (member :: fewer) (member :: more)

theorem Inserted.append {extra : Member} {fewer more : List Member}
    (inserted : Inserted extra fewer more) (before : List Member) :
    Inserted extra (before ++ fewer) (before ++ more) := by
  induction before with
  | nil => exact inserted
  | cons member rest inductionHypothesis => exact .later member inductionHypothesis

/-- The longer list has some version of the extra member at one position. -/
theorem Inserted.exists_position {extra : Member} {fewer more : List Member}
    (inserted : Inserted extra fewer more) :
    ∃ position version, version.declared = extra.declared ∧
      more = fewer.take position ++ version :: fewer.drop position := by
  induction inserted with
  | here version rest same => exact ⟨0, version, same, rfl⟩
  | later member _ inductionHypothesis =>
      obtain ⟨position, version, same, rfl⟩ := inductionHypothesis
      exact ⟨position + 1, version, same, rfl⟩

end Member

/-! ### Added diagnostics -/

/-- The longer list adds diagnostics of one context to the shorter one. -/
inductive Diagnostic.AddsOnly (context : String) : List Diagnostic → List Diagnostic → Prop where
  | nil : AddsOnly context [] []
  | keep (diagnostic : Diagnostic) {fewer more : List Diagnostic}
      (adds : AddsOnly context fewer more) :
      AddsOnly context (diagnostic :: fewer) (diagnostic :: more)
  | add (diagnostic : Diagnostic) {fewer more : List Diagnostic}
      (concerns : diagnostic.context = context) (adds : AddsOnly context fewer more) :
      AddsOnly context fewer (diagnostic :: more)

namespace Diagnostic.AddsOnly

variable {context : String}

theorem append {first second firstLater secondLater : List Diagnostic}
    (adds : AddsOnly context first second) (later : AddsOnly context firstLater secondLater) :
    AddsOnly context (first ++ firstLater) (second ++ secondLater) := by
  induction adds with
  | nil => exact later
  | keep diagnostic _ inductionHypothesis => exact .keep diagnostic inductionHypothesis
  | add diagnostic concerns _ inductionHypothesis =>
      exact .add diagnostic concerns inductionHypothesis

theorem refl (diagnostics : List Diagnostic) : AddsOnly context diagnostics diagnostics := by
  induction diagnostics with
  | nil => exact .nil
  | cons diagnostic rest inductionHypothesis => exact .keep diagnostic inductionHypothesis

theorem addAll {added : List Diagnostic}
    (concern : ∀ diagnostic ∈ added, diagnostic.context = context) :
    AddsOnly context [] added := by
  induction added with
  | nil => exact .nil
  | cons diagnostic rest inductionHypothesis =>
      obtain ⟨first, others⟩ := List.forall_mem_cons.mp concern
      exact .add diagnostic first (inductionHypothesis others)

end Diagnostic.AddsOnly

/-! ### Rounds with one more member -/

namespace Member

variable {site : Site} {extra : Member} {fewer more : List Member}

/-- Everything that is reported while a member is settled concerns this member. -/
theorem context_of_mem_settle {member : Member} {diagnostic : Diagnostic}
    (reported : diagnostic ∈ Event.diagnostics (member.settle site).events) :
    diagnostic.context = member.label site.name := by
  have bounds : ∀ diagnostic ∈ Event.diagnostics (member.settleBounds site).events,
      diagnostic.context = member.label site.name := by
    intro diagnostic inside
    have silent : ∀ failures : List Unresolved,
        Event.diagnostics (failures.map Event.unresolved) = [] := by
      intro failures
      simp [Event.diagnostics, Event.problem?, Function.comp_def]
    simp only [settleBounds, TypeParameter.settleAll, TypeParameter.failureEvents,
      Event.diagnostics_append, silent, List.nil_append] at inside
    simp only [Event.diagnostics, List.mem_map, List.mem_filterMap] at inside
    obtain ⟨problem, ⟨event, ⟨failure, -, rfl⟩, isProblem⟩, rfl⟩ := inside
    obtain rfl := Option.some.inj isProblem
    rfl
  unfold settle at reported
  dsimp only at reported
  split at reported
  next => exact bounds diagnostic reported
  next unresolved _ =>
    rw [Event.diagnostics_append, List.mem_append] at reported
    rcases reported with bound | removal
    · exact bounds diagnostic bound
    · obtain rfl := List.mem_singleton.mp removal
      rfl

/-- A round over one more member settles the others as before and reports nothing else. -/
theorem Inserted.settleRound (inserted : Inserted extra fewer more) (site : Site)
    (kind : MemberKind) :
    ((settleRound site kind more).value = (settleRound site kind fewer).value ∨
      Inserted extra (settleRound site kind fewer).value (settleRound site kind more).value) ∧
    Diagnostic.AddsOnly (extra.label site.name)
      (Event.diagnostics (settleRound site kind fewer).events)
      (Event.diagnostics (settleRound site kind more).events) := by
  induction inserted with
  | here version rest same =>
      by_cases sameKind : version.kind = kind
      · simp only [Member.settleRound, if_pos sameKind, Event.diagnostics_append]
        constructor
        · rw [settle_value]
          split
          next =>
            refine .inr (.here (version.fill site) _ ?_)
            rw [declared_fill, same]
          next => exact .inl rfl
        · have concern : ∀ diagnostic ∈ Event.diagnostics (version.settle site).events,
              diagnostic.context = extra.label site.name := by
            intro diagnostic reported
            rw [← label_congr same]
            exact context_of_mem_settle reported
          exact (Diagnostic.AddsOnly.addAll concern).append (.refl _)
      · simp only [Member.settleRound, if_neg sameKind]
        exact ⟨.inr (.here version _ same), .refl _⟩
  | later member _ inductionHypothesis =>
      obtain ⟨values, diagnostics⟩ := inductionHypothesis
      by_cases sameKind : member.kind = kind
      · simp only [Member.settleRound, if_pos sameKind, Event.diagnostics_append]
        constructor
        · rcases values with equal | inserted
          · exact .inl (congrArg _ equal)
          · exact .inr (inserted.append _)
        · exact .append (.refl _) diagnostics
      · simp only [Member.settleRound, if_neg sameKind]
        refine ⟨?_, diagnostics⟩
        rcases values with equal | inserted
        · exact .inl (congrArg _ equal)
        · exact .inr (inserted.later member)

/-- The extra member stays or goes, and only diagnostics about itself come with it. -/
theorem Inserted.settleRounds (inserted : Inserted extra fewer more) (site : Site)
    (kinds : List MemberKind) :
    ((settleRounds site kinds more).value = (settleRounds site kinds fewer).value ∨
      Inserted extra (settleRounds site kinds fewer).value
        (settleRounds site kinds more).value) ∧
    Diagnostic.AddsOnly (extra.label site.name)
      (Event.diagnostics (settleRounds site kinds fewer).events)
      (Event.diagnostics (settleRounds site kinds more).events) := by
  induction kinds generalizing fewer more with
  | nil => exact ⟨.inr inserted, .nil⟩
  | cons kind rest inductionHypothesis =>
      obtain ⟨values, diagnostics⟩ := inserted.settleRound site kind
      simp only [Member.settleRounds, Event.diagnostics_append]
      rcases values with equal | still
      · rw [equal]
        exact ⟨.inl rfl, diagnostics.append (.refl _)⟩
      · obtain ⟨later, laterDiagnostics⟩ := inductionHypothesis still
        exact ⟨later, diagnostics.append laterDiagnostics⟩

end Member

end TypeGraph
