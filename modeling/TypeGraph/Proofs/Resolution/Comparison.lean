import TypeGraph.Proofs.Resolution.Shrinking
import TypeGraph.Proofs.Resolution.Subgraph

/-!
This file compares what two runs without a limit of passes keep. Their passes remove different
declarations, but each run ends with the largest set that supports itself, so it is enough that what
supports itself in the one run does so in the other.
-/

namespace TypeGraph

/-- A policy eases another one when it demands interfaces only where the other one does. -/
def InterfacePolicy.Eases (lenient strict : InterfacePolicy) : Prop :=
  lenient = .removeDeclaration → strict = .removeDeclaration

theorem InterfacePolicy.Eases.refl (policy : InterfacePolicy) : policy.Eases policy :=
  id

theorem InterfacePolicy.Eases.ofDropEntry (policy : InterfacePolicy) : dropEntry.Eases policy := by
  intro demanded
  cases demanded

theorem Declaration.Stands.ease {lookup : Lookup} {lenient strict : InterfacePolicy}
    {handle : Handle} {declaration : Declaration} (eases : lenient.Eases strict)
    (stands : declaration.Stands lookup strict handle) :
    declaration.Stands lookup lenient handle :=
  ⟨stands.1, fun demanded => stands.2 (eases demanded)⟩

/-- An interface has no superclass, so it stands where no interface is demanded. -/
theorem Declaration.stands_of_isInterface {declaration : Declaration}
    (isInterface : declaration.isInterface = true) (lookup : Lookup) (handle : Handle) :
    declaration.Stands lookup .dropEntry handle := by
  have kind : declaration.kind = .ofInterface := by
    cases kind : declaration.kind with
    | ofInterface => rfl
    | ofClass superclass => simp [Declaration.isInterface, isClass, kind] at isInterface
  have none : declaration.superclass? = none := by
    rw [superclass?, kind]
  constructor
  · intro slot inside
    rw [none] at inside
    cases inside
  · intro demanded
    cases demanded

namespace Catalog

variable {catalog smaller larger low high : Catalog} {lenient strict : InterfacePolicy}

/-- A catalog lies within another one when the packages list its declarations there as well, at the
same places, and when no restricted lookup finds fewer names there. -/
structure LiesWithin (smaller larger : Catalog) : Prop where
  handles : ∀ handle ∈ smaller.handles, handle ∈ larger.handles
  places : ∀ handle ∈ smaller.handles, larger.declaration? handle = smaller.declaration? handle
  lookups : ∀ keeps, (smaller.lookupWithin keeps).Within (larger.lookupWithin keeps)

namespace LiesWithin

theorem refl (catalog : Catalog) : catalog.LiesWithin catalog :=
  ⟨fun _ listed => listed, fun _ _ => rfl, fun _ => .refl _⟩

theorem liveHandles_subset (within : smaller.LiesWithin larger) :
    smaller.liveHandles ⊆ larger.liveHandles := by
  intro handle live
  obtain ⟨listed, isLive⟩ := mem_liveHandles_iff.mp live
  refine mem_liveHandles_iff.mpr ⟨within.handles handle listed, ?_⟩
  rwa [Catalog.isLive, within.places handle listed]

/-- A set that supports itself does so under an easier policy and in a larger catalog. -/
theorem supports (within : smaller.LiesWithin larger) (eases : lenient.Eases strict)
    {kept : Finset Handle} (subset : kept ⊆ smaller.liveHandles)
    (supports : smaller.Supports strict kept) : larger.Supports lenient kept := by
  intro handle member declaration found
  have listed := (mem_liveHandles_iff.mp (subset member)).1
  rw [within.places handle listed] at found
  exact ((supports handle member declaration found).mono (within.lookups _)).ease eases

/-- What survives in the smaller catalog survives in the larger one under an easier policy. -/
theorem survivors_subset (within : smaller.LiesWithin larger) (eases : lenient.Eases strict)
    (smallerIndexed : smaller.Indexed) (largerIndexed : larger.Indexed)
    (lower : HasDescended smaller strict low) (higher : HasDescended larger lenient high) :
    low.liveHandles ⊆ high.liveHandles := by
  obtain ⟨subset, supports⟩ := (lower.isGreatest smallerIndexed).1
  exact (higher.isGreatest largerIndexed).2
    ⟨subset.trans within.liveHandles_subset, within.supports eases subset supports⟩

/-- A declaration that survives in the smaller catalog has all its interfaces if they are demanded
there, and it has every part of it that survives there also in the larger one. -/
theorem exists_survivor (within : smaller.LiesWithin larger) (eases : lenient.Eases strict)
    (smallerIndexed : smaller.Indexed) (largerIndexed : larger.Indexed)
    (lower : HasDescended smaller strict low) (higher : HasDescended larger lenient high)
    {entry : Handle × Declaration} (survives : entry ∈ low.declarations) :
    ∃ original later, (entry.1, original) ∈ smaller.declarations ∧
      (entry.1, later) ∈ high.declarations ∧ original.ShrinksTo strict later ∧
        later.ShrinksTo strict entry.2 := by
  obtain ⟨inside, found⟩ := mem_declarations_iff.mp survives
  have listed := lower.toDescends.mem_handles inside
  obtain ⟨original, isOriginal, stands, filled⟩ := lower.survivor entry.1 listed entry.2 found
  have subset := within.survivors_subset eases smallerIndexed largerIndexed lower higher
  obtain ⟨later, declared⟩ :=
    mem_liveHandles_iff_exists.mp (subset (mem_liveHandles_iff_exists.mpr ⟨entry.2, survives⟩))
  obtain ⟨same, isSame, -, laterFilled⟩ := higher.survivor entry.1
    (within.handles entry.1 listed) later (mem_declarations_iff.mp declared).2
  obtain rfl : original = same := by
    rw [within.places entry.1 listed, isOriginal] at isSame
    exact Option.some.inj isSame
  -- among more survivors in a larger catalog the original stands as well and keeps more
  have more : (smaller.lookupWithin fun handle => handle ∈ low.liveHandles).Within
      (larger.lookupWithin fun handle => handle ∈ high.liveHandles) := by
    refine (within.lookups _).trans (lookupWithin_mono largerIndexed ?_)
    intro handle _ kept
    exact decide_eq_true (subset (of_decide_eq_true kept))
  have stood := stands.mono more
  refine ⟨original, later, mem_declarations_iff.mpr ⟨listed, isOriginal⟩, declared, ?_, ?_⟩
  · rw [laterFilled]
    exact stood.shrinksTo_fill
  · rw [filled, ← Declaration.fill_fill more, ← laterFilled]
    rw [← Declaration.stands_fill_iff stood, ← laterFilled] at stands
    exact stands.shrinksTo_fill

end LiesWithin

/-! ### Two policies -/

/-- A lenient run is no harsher than a strict one. What survives the strict run survives the lenient
one with all its interfaces and every part that survives the strict run, and the lenient run removes
no interface. -/
structure IsNoHarsher (before lenient strict : Catalog) : Prop where
  survives : ∀ entry ∈ strict.declarations, ∃ original later,
    (entry.1, original) ∈ before.declarations ∧ (entry.1, later) ∈ lenient.declarations ∧
      original.ShrinksTo .removeDeclaration later ∧ later.ShrinksTo .removeDeclaration entry.2
  interfaces : ∀ entry ∈ before.declarations, entry.2.isInterface = true →
    ∃ later, (entry.1, later) ∈ lenient.declarations

/-- An interface survives every run without a limit that does not demand interfaces. -/
theorem HasDescended.exists_interface (indexed : catalog.Indexed)
    (descended : HasDescended catalog .dropEntry high) {entry : Handle × Declaration}
    (declared : entry ∈ catalog.declarations) (isInterface : entry.2.isInterface = true) :
    ∃ later, (entry.1, later) ∈ high.declarations := by
  have found := (mem_declarations_iff.mp declared).2
  have alone : ∀ handle, handle ∈ [entry.1].toFinset ↔ handle = entry.1 := by simp
  have subset : [entry.1].toFinset ⊆ catalog.liveHandles := by
    intro handle member
    rw [(alone handle).mp member]
    exact mem_liveHandles_iff_exists.mpr ⟨entry.2, declared⟩
  have supports : catalog.Supports .dropEntry [entry.1].toFinset := by
    intro handle member declaration isDeclaration
    rw [(alone handle).mp member, found] at isDeclaration
    obtain rfl := Option.some.inj isDeclaration
    exact Declaration.stands_of_isInterface isInterface _ _
  have kept := (descended.isGreatest indexed).2 ⟨subset, supports⟩
  exact mem_liveHandles_iff_exists.mp (kept ((alone entry.1).mpr rfl))

/-- After any history without a renaming, a run that drops interface entries is no harsher than one
that removes declarations for them. -/
theorem resolve_isNoHarsher {commands : List Command}
    (named : ∀ command ∈ commands, command.EditsWithin Declaration.SameName)
    (installsStandard : Bool) :
    let catalog := Catalog.empty.performAll commands
    IsNoHarsher catalog (catalog.resolve ⟨.dropEntry, none, installsStandard⟩).catalog
      (catalog.resolve ⟨.removeDeclaration, none, installsStandard⟩).catalog := by
  intro catalog
  let strict : Options := ⟨.removeDeclaration, none, installsStandard⟩
  let lenient : Options := ⟨.dropEntry, none, installsStandard⟩
  have indexed := Indexed.persists_of_sameName.prepare (performAll_indexed named) strict
  have sameDeclarations := (performAll_isSeparated commands).declarations_prepare strict
  have strictly := indexed.hasDescended (show strict.passLimit = none from rfl)
  have leniently := indexed.hasDescended (show lenient.passLimit = none from rfl)
  constructor
  case survives =>
    intro entry survives
    rw [← sameDeclarations]
    exact (LiesWithin.refl _).exists_survivor (.ofDropEntry _) indexed indexed strictly leniently
      survives
  case interfaces =>
    intro entry declared isInterface
    rw [← sameDeclarations] at declared
    exact leniently.exists_interface indexed declared isInterface

/-- In this history a class and an interface list an interface that nothing declares, and another
class has a field of that interface's type. -/
def divided : List Command :=
  [.addPackage "p", .declare "p" (.newInterface "Base"),
    .declare "p" ((Declaration.newInterface "Shape").withSupertype "p.Missing"),
    .declare "p" ((Declaration.newClass "Worker").withInterface "p.Missing"),
    .declare "p" (((Declaration.newClass "Kept").withInterface "p.Base").withMember
      (.field ⟨"shape", .ofText "p.Shape"⟩))]

/-- The lenient run keeps an interface, a class and a field that the strict run removes. -/
theorem resolve_isNoHarsher_divided :
    let catalog := Catalog.empty.performAll divided
    let lenient := (catalog.resolve ⟨.dropEntry, none, false⟩).catalog
    let strict := (catalog.resolve ⟨.removeDeclaration, none, false⟩).catalog
    (∀ command ∈ divided, command.EditsWithin Declaration.SameName) ∧
      (lenient.declarations.map fun entry => (entry.2.name, entry.2.members.length)) =
        [("Base", 0), ("Shape", 0), ("Worker", 0), ("Kept", 1)] ∧
      (strict.declarations.map fun entry => (entry.2.name, entry.2.members.length)) =
        [("Base", 0), ("Kept", 0)] ∧
      IsNoHarsher catalog lenient strict := by
  intro catalog lenient strict
  have named : ∀ command ∈ divided, command.EditsWithin Declaration.SameName := by
    simp [divided, Command.EditsWithin]
  exact ⟨named, by decide +kernel, by decide +kernel, resolve_isNoHarsher named false⟩

end Catalog

end TypeGraph
