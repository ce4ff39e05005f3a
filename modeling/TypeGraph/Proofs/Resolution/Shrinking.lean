import Mathlib.Data.List.Forall2
import TypeGraph.Proofs.Catalog.Installation
import TypeGraph.Proofs.Resolution.Account
import TypeGraph.Proofs.Resolution.ExtraMember

/-!
This file shows that a run takes parts away and changes nothing else. What is left stands in the old
order with its old names and texts, and only the standard table is ever added.
-/

namespace TypeGraph

/-! ### Shrunken declarations -/

/-- Filling adds nothing to what a type parameter declares. -/
theorem TypeParameter.declared_fill (lookup : Lookup) (scopes : List Scope)
    (parameter : TypeParameter) : (parameter.fill lookup scopes).declared = parameter.declared := by
  simp only [declared, fill, List.map_map, mk.injEq, true_and]
  apply List.map_congr_left
  intro bound _
  simp only [Function.comp_apply, Bound.fill]
  split <;> rfl

/-- The declared part of a kind has the text of the superclass and no reference. -/
def DeclarationKind.declared : DeclarationKind → DeclarationKind
  | .ofClass superclass => .ofClass (superclass.map fun slot => .ofText slot.text)
  | .ofInterface => .ofInterface

/-- Filling adds nothing to the declared superclass. -/
theorem DeclarationKind.declared_fill (site : Site) (kind : DeclarationKind) :
    (kind.fill site).declared = kind.declared := by
  cases kind with
  | ofClass superclass => cases superclass <;> rfl
  | ofInterface => rfl

/-- Filling adds nothing to what a member declares. -/
theorem Member.declared_fillAmong (site : Site) (kinds : List MemberKind) (member : Member) :
    (member.fillAmong site kinds).declared = member.declared := by
  unfold fillAmong
  split
  · exact declared_fill site member
  · rfl

/-- A declaration shrinks when its interface texts and its members become fewer and nothing else of
what was declared changes. Under the strict policy no interface text is lost. -/
structure Declaration.ShrinksTo (policy : InterfacePolicy) (before after : Declaration) : Prop where
  name : after.name = before.name
  package : after.package = before.package
  kind : after.kind.declared = before.kind.declared
  typeParameters : after.typeParameters.map TypeParameter.declared =
    before.typeParameters.map TypeParameter.declared
  interfaces : (after.interfaces.map Slot.text).Sublist (before.interfaces.map Slot.text)
  members : (after.members.map Member.declared).Sublist (before.members.map Member.declared)
  required : policy = .removeDeclaration →
    after.interfaces.map Slot.text = before.interfaces.map Slot.text

namespace Declaration

variable {lookup : Lookup} {policy : InterfacePolicy} {handle : Handle}

theorem ShrinksTo.refl (declaration : Declaration) : declaration.ShrinksTo policy declaration :=
  ⟨rfl, rfl, rfl, rfl, .refl _, .refl _, fun _ => rfl⟩

/-- Declarations shrink step by step. -/
theorem ShrinksTo.trans {before between after : Declaration}
    (first : before.ShrinksTo policy between) (later : between.ShrinksTo policy after) :
    before.ShrinksTo policy after where
  name := later.name.trans first.name
  package := later.package.trans first.package
  kind := later.kind.trans first.kind
  typeParameters := later.typeParameters.trans first.typeParameters
  interfaces := later.interfaces.trans first.interfaces
  members := later.members.trans first.members
  required := fun strict => (later.required strict).trans (first.required strict)

/-- Filled slots have the texts of the slots that were filled. -/
theorem map_text_fill (lookup : Lookup) (scopes : List Scope) (slots : List Slot) :
    (slots.map fun slot => slot.fill lookup scopes).map Slot.text = slots.map Slot.text := by
  rw [List.map_map]
  rfl

/-- A declaration that stands shrinks when it is filled. -/
theorem Stands.shrinksTo_fill {declaration : Declaration}
    (stands : declaration.Stands lookup policy handle) :
    declaration.ShrinksTo policy (declaration.fill lookup handle) where
  name := rfl
  package := rfl
  kind := DeclarationKind.declared_fill _ _
  typeParameters := by
    simp only [fill, List.map_map]
    apply List.map_congr_left
    intro parameter _
    exact TypeParameter.declared_fill _ _ parameter
  interfaces := by
    simp only [fill, map_text_fill]
    exact List.filter_sublist.map Slot.text
  members := by
    simp only [fill, List.map_map, Function.comp_def, Member.declared_fillAmong]
    exact List.filter_sublist.map Member.declared
  required := by
    intro strict
    have all : (declaration.interfaces.filter fun slot =>
        slot.Resolves lookup [(declaration.site lookup handle).scope]) =
          declaration.interfaces := by
      rw [List.filter_eq_self]
      intro slot listed
      exact decide_eq_true (stands.2 strict slot listed)
    simp only [fill, map_text_fill, all]

end Declaration

/-! ### Shrunken catalogs -/

/-- A package shrinks when it loses entries. -/
structure Package.ShrinksTo (before after : Package) : Prop where
  name : after.name = before.name
  entries : after.entries.Sublist before.entries

/-- A package shrinks further when an entry is erased. -/
theorem Package.ShrinksTo.erase {before after : Package} (shrinks : before.ShrinksTo after)
    (package simple : String) (handle : Handle) :
    before.ShrinksTo (if after.name = package then after.erase simple handle else after) := by
  split
  next => exact ⟨shrinks.name, List.filter_sublist.trans shrinks.entries⟩
  next => exact shrinks

/-- Packages that shrink list fewer handles in the same order. -/
theorem Package.handles_sublist {before after : List Package}
    (shrinks : List.Forall₂ Package.ShrinksTo before after) :
    (after.flatMap Package.handles).Sublist (before.flatMap Package.handles) := by
  induction shrinks with
  | nil => exact .refl _
  | cons first _ inductionHypothesis =>
      simp only [List.flatMap_cons]
      exact (first.entries.map Prod.snd).append inductionHypothesis

namespace Catalog

variable {catalog start current : Catalog} {policy : InterfacePolicy} {handle : Handle}
  {options : Options}

/-- A catalog shrinks when packages lose entries and their declarations shrink or go. The registry
and every place that no package lists are left alone. -/
structure ShrinksTo (policy : InterfacePolicy) (before after : Catalog) : Prop where
  packages : List.Forall₂ Package.ShrinksTo before.packages after.packages
  registry : after.registry = before.registry
  size : after.arena.size = before.arena.size
  content : ∀ handle later, after.declaration? handle = some later →
    ∃ earlier, before.declaration? handle = some earlier ∧ earlier.ShrinksTo policy later
  elsewhere : ∀ handle, handle ∉ before.handles →
    after.declaration? handle = before.declaration? handle

namespace ShrinksTo

theorem refl (catalog : Catalog) : catalog.ShrinksTo policy catalog where
  packages := List.forall₂_same.mpr fun _ _ => ⟨rfl, .refl _⟩
  registry := rfl
  size := rfl
  content := fun _ later found => ⟨later, found, .refl later⟩
  elsewhere := fun _ _ => rfl

/-- The handles that are left stand in the old order. -/
theorem handles (shrinks : start.ShrinksTo policy current) :
    current.handles.Sublist start.handles :=
  Package.handles_sublist shrinks.packages

/-- The live declarations that are left stand in the old order. -/
theorem declarations (shrinks : start.ShrinksTo policy current) :
    (current.declarations.map Prod.fst).Sublist (start.declarations.map Prod.fst) := by
  have live : ∀ catalog : Catalog, catalog.declarations.map Prod.fst =
      catalog.handles.filter fun handle => catalog.isLive handle := by
    intro catalog
    have listed := map_fst_filter_declarations catalog fun _ => true
    rw [List.filter_true] at listed
    rw [listed]
    apply List.filter_congr
    intro handle _
    rw [isLive]
    cases catalog.declaration? handle <;> rfl
  rw [live, live]
  have stays : ∀ handle, current.isLive handle = true → start.isLive handle = true := by
    intro handle isLive
    obtain ⟨later, found⟩ := Option.isSome_iff_exists.mp isLive
    obtain ⟨earlier, was, -⟩ := shrinks.content handle later found
    exact Option.isSome_iff_exists.mpr ⟨earlier, was⟩
  exact (shrinks.handles.filter _).trans (List.monotone_filter_right _ stays)

/-- A catalog shrinks further when one of its declarations that stands is filled. -/
theorem filled (shrinks : start.ShrinksTo policy current) (listed : handle ∈ start.handles)
    {declaration : Declaration} (found : current.declaration? handle = some declaration)
    (stands : declaration.Stands current.lookup? policy handle) :
    start.ShrinksTo policy (current.filled handle declaration) where
  packages := by
    rw [packages_filled]
    exact shrinks.packages
  registry := (registry_filled _ _ _).trans shrinks.registry
  size := (size_update _ _ _).trans shrinks.size
  content := by
    intro other later isLater
    rw [declaration?_filled found] at isLater
    split at isLater
    next same =>
      subst same
      obtain rfl := Option.some.inj isLater
      obtain ⟨earlier, was, shrunken⟩ := shrinks.content other declaration found
      exact ⟨earlier, was, shrunken.trans stands.shrinksTo_fill⟩
    next => exact shrinks.content other later isLater
  elsewhere := by
    intro other unlisted
    rw [declaration?_filled found, if_neg, shrinks.elsewhere other unlisted]
    rintro rfl
    exact unlisted listed

/-- A catalog shrinks further when a declaration outside of the registry is removed. -/
theorem removed (shrinks : start.ShrinksTo policy current) (listed : handle ∈ start.handles)
    (apart : handle ∉ start.registry.flatMap Package.handles) :
    start.ShrinksTo policy (current.remove handle) where
  packages := by
    unfold Catalog.remove
    split
    next => exact shrinks.packages
    next declaration _ =>
      rw [eraseEntry, List.forall₂_map_right_iff]
      exact shrinks.packages.imp fun _ _ smaller => smaller.erase _ _ _
  registry := by
    rw [← shrinks.registry] at apart
    exact (registry_remove_of_not_mem apart).trans shrinks.registry
  size := (size_remove _ _).trans shrinks.size
  content := by
    intro other later isLater
    rw [declaration?_remove] at isLater
    split at isLater
    next => cases isLater
    next => exact shrinks.content other later isLater
  elsewhere := by
    intro other unlisted
    rw [declaration?_remove, if_neg, shrinks.elsewhere other unlisted]
    rintro rfl
    exact unlisted listed

/-- A step at a listed handle shrinks the catalog further. -/
theorem step (shrinks : start.ShrinksTo policy current) (listed : handle ∈ start.handles)
    (apart : handle ∉ start.registry.flatMap Package.handles) :
    start.ShrinksTo policy (current.step policy handle).catalog := by
  have steps := step_steps current policy handle
  generalize (current.step policy handle).catalog = later at steps ⊢
  generalize (current.step policy handle).removed = removed at steps
  cases steps with
  | absent => exact shrinks
  | filled declaration found stands => exact shrinks.filled listed found stands
  | removed => exact shrinks.removed listed apart

/-- A pass shrinks the catalog further. -/
theorem pass (shrinks : start.ShrinksTo policy current) (separated : start.IsSeparated) :
    start.ShrinksTo policy (current.pass policy).catalog := by
  -- the order is fixed before the pass, so its handles are listed at the start even if they fell
  have visited : ∀ handle ∈ current.visitOrder, handle ∈ start.handles :=
    fun handle inside => shrinks.handles.subset (mem_visitOrder_iff.mp inside).1
  refine sweep_invariant (fun handle inside middle smaller => ?_) shrinks
  exact smaller.step (visited handle inside) fun registered =>
    separated.apart handle registered (visited handle inside)

end ShrinksTo

/-- Repeated passes shrink the catalog that they start from. -/
theorem IsSeparated.repeatPasses_shrinks (separated : catalog.IsSeparated) (options : Options)
    (done : Nat) :
    catalog.ShrinksTo options.policy (catalog.repeatPasses options done).catalog :=
  (repeatPasses_invariant (fun _ smaller => smaller.pass separated) (.refl catalog) done).1

/-! ### Whole runs -/

/-- No notice of a run says that the installation of the standard registry was refused. -/
theorem not_refused_of_mem_notices {notice : Notice}
    (inside : notice ∈ (catalog.resolve options).notices) (refusal : Refusal) :
    notice.event ≠ .reported (.installationRefused refusal) := by
  simp only [notices_resolve, List.mem_append] at inside
  rcases inside with (opening | (staged | limited)) | closing
  · rw [event_of_mem_prepare opening]
    exact nofun
  · obtain ⟨⟨stage, number⟩, -, listed⟩ := List.mem_flatMap.mp staged
    obtain ⟨event, happened, rfl⟩ := List.mem_map.mp listed
    rcases List.mem_append.mp happened with explained | finished
    · obtain ⟨incident, belongs⟩ := exists_incident_of_mem_pass explained
      exact incident.not_refused_of_mem_events belongs refusal
    · rw [List.mem_singleton.mp finished]
      exact nofun
  · unfold limitNotices at limited
    split at limited
    next => cases limited
    next =>
      rw [List.mem_singleton.mp limited]
      exact nofun
  · unfold closingNotices at closing
    split at closing
    next =>
      rw [List.mem_singleton.mp closing]
      exact nofun
    next => cases closing

/-- A run only shrinks a catalog. The packages and their live declarations keep their order and
shrink, what the registry lists stays exactly as it was, and so does every place that no package
lists. The standard table is the only addition, which is never refused, and it is made only when it
is asked for and nothing is registered. -/
structure OnlyShrinks (before : Catalog) (options : Options) (run : Run) : Prop where
  packages : List.Forall₂ Package.ShrinksTo before.packages run.catalog.packages
  order : (run.catalog.declarations.map Prod.fst).Sublist (before.declarations.map Prod.fst)
  content : ∀ handle later, (handle, later) ∈ run.catalog.declarations →
    ∃ earlier, (handle, earlier) ∈ before.declarations ∧ earlier.ShrinksTo options.policy later
  registered : ∀ package simple handle, before.Registers package simple handle →
    run.catalog.declaration? handle = before.declaration? handle
  elsewhere : ∀ handle : Handle, handle.index < before.arena.size → handle ∉ before.handles →
    run.catalog.declaration? handle = before.declaration? handle
  unadded : before.additions options = [] → run.catalog.registry = before.registry
  registers : ∀ package simple handle, run.catalog.Registers package simple handle ↔
    before.Registers package simple handle ∨
      ∃ index standard, (before.additions options)[index]? = some standard ∧
        standard.key = (package, simple) ∧ handle = ⟨before.arena.size + index⟩
  size : run.catalog.arena.size = before.arena.size + (before.additions options).length
  added : ∀ index standard, (before.additions options)[index]? = some standard →
    run.catalog.declaration? ⟨before.arena.size + index⟩ = some standard.placed
  accepted : before.additions options ≠ [] → before.installStandard.refusal = none
  silent : ∀ notice ∈ run.notices, ∀ refusal,
    notice.event ≠ .reported (.installationRefused refusal)

/-- A run shrinks the catalog that its preparation leaves. -/
theorem IsSeparated.resolve_shrinks (separated : catalog.IsSeparated) (options : Options) :
    (catalog.prepare options).1.ShrinksTo options.policy (catalog.resolve options).catalog :=
  (IsSeparated.persists.prepare separated options).repeatPasses_shrinks options 0

/-- A run leaves alone every old place that no package lists. -/
theorem IsSeparated.declaration?_resolve (separated : catalog.IsSeparated) {handle : Handle}
    (old : handle.index < catalog.arena.size) (unlisted : handle ∉ catalog.handles) :
    (catalog.resolve options).catalog.declaration? handle = catalog.declaration? handle := by
  have installs := prepare_installs catalog options
  rw [← installs.handles_eq] at unlisted
  rw [(separated.resolve_shrinks options).elsewhere handle unlisted,
    installs.declaration?_of_lt old]

/-- A run leaves alone what its preparation added. -/
theorem IsSeparated.declaration?_resolve_added (separated : catalog.IsSeparated) {index : Nat}
    {standard : StandardDeclaration}
    (isStandard : (catalog.additions options)[index]? = some standard) :
    (catalog.resolve options).catalog.declaration? ⟨catalog.arena.size + index⟩ =
      some standard.placed := by
  have installs := prepare_installs catalog options
  have unlisted : ⟨catalog.arena.size + index⟩ ∉ (catalog.prepare options).1.handles := by
    rw [installs.handles_eq]
    intro listed
    have inside := separated.given _ (mem_handles_allPackages_iff.mpr (.inl listed))
    exact Nat.not_lt.mpr (Nat.le_add_right _ _) inside
  rw [(separated.resolve_shrinks options).elsewhere _ unlisted, installs.declaration?_added,
    isStandard]
  rfl

/-- After any history and under any options, a resolution only shrinks the catalog. -/
theorem resolve_onlyShrinks (commands : List Command) (options : Options) :
    OnlyShrinks (Catalog.empty.performAll commands) options
      ((Catalog.empty.performAll commands).resolve options) := by
  have separated := performAll_isSeparated commands
  generalize Catalog.empty.performAll commands = catalog at separated ⊢
  have installs := prepare_installs catalog options
  have shrinks := separated.resolve_shrinks options
  have sameDeclarations := separated.declarations_prepare options
  constructor
  case packages => exact installs.packages ▸ shrinks.packages
  case order => exact sameDeclarations ▸ shrinks.declarations
  case content =>
    intro handle later isLater
    obtain ⟨listed, found⟩ := mem_declarations_iff.mp isLater
    obtain ⟨earlier, was, smaller⟩ := shrinks.content handle later found
    have before := mem_declarations_iff.mpr ⟨shrinks.handles.subset listed, was⟩
    rw [sameDeclarations] at before
    exact ⟨earlier, before, smaller⟩
  case registered =>
    rintro package simple handle ⟨found, member, -, entry⟩
    have listed : handle ∈ catalog.registry.flatMap Package.handles :=
      List.mem_flatMap_of_mem member (Package.mem_handles_iff.mpr ⟨simple, entry⟩)
    have inside := separated.given handle (mem_handles_allPackages_iff.mpr (.inr listed))
    exact separated.declaration?_resolve inside (separated.apart handle listed)
  case elsewhere => exact fun _ => separated.declaration?_resolve
  case unadded =>
    intro none
    rcases catalog.additions_eq_nil_or options with ⟨-, same⟩ | ⟨all, -⟩
    · rw [shrinks.registry, same]
    · rw [all] at none
      cases none
  case registers =>
    intro package simple handle
    rw [← installs.registers, Registers, Registers, shrinks.registry]
  case size =>
    rw [shrinks.size, installs.arena]
    simp
  case added => exact fun _ _ => separated.declaration?_resolve_added
  case accepted =>
    intro some
    rcases catalog.additions_eq_nil_or options with ⟨none, -⟩ | ⟨-, absent, -⟩
    · exact absurd none some
    · exact (installStandard_installs absent).1
  case silent => exact fun notice inside => not_refused_of_mem_notices inside

end Catalog

end TypeGraph
