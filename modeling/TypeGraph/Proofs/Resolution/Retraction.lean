import TypeGraph.Proofs.Catalog.Scan
import TypeGraph.Proofs.Resolution.Signature

/-!
This file says what the removal of one declaration does to the resolution of a text. No text gains
a reference, a reference that does not mention the declaration stays as it is, and one that does
gives way to a failure or to a reference without it.
-/

namespace TypeGraph

namespace Signature

variable {lookup other : Lookup} {scopes : List Scope}

/-- A list resolves to the same references where each of its members does. -/
theorem resolveAll_eq_ok_of_forall {signatures : List Signature} {references : List Reference}
    (resolved : resolveAll lookup scopes signatures = .ok references)
    (same : ∀ signature ∈ signatures, ∀ reference ∈ references,
      signature.resolve lookup scopes = .ok reference →
        signature.resolve other scopes = .ok reference) :
    resolveAll other scopes signatures = .ok references := by
  induction signatures generalizing references with
  | nil =>
      rw [resolveAll_nil] at resolved ⊢
      exact resolved
  | cons signature rest inductionHypothesis =>
      obtain ⟨reference, references, head, tail, rfl⟩ := resolveAll_cons_eq_ok_iff.mp resolved
      obtain ⟨sameHead, sameTail⟩ := List.forall_mem_cons.mp same
      refine resolveAll_cons_eq_ok_iff.mpr ⟨reference, references, ?_, ?_, rfl⟩
      · exact sameHead reference List.mem_cons_self head
      · exact inductionHypothesis tail fun signature among reference inside =>
          sameTail signature among reference (List.mem_cons_of_mem _ inside)

/-- A resolution depends on the lookup only through the declared nodes of its reference. -/
theorem resolve_of_declaredNodes {signature : Signature} {reference : Reference}
    (resolved : signature.resolve lookup scopes = .ok reference)
    (same : ∀ node ∈ reference.declaredNodes, other node.2 = some node.1) :
    signature.resolve other scopes = .ok reference := by
  induction signature using Signature.induct generalizing reference with
  | node name arguments rank bound constraints fromArguments fromConstraints =>
      cases resolve_eq_ok_iff.mp resolved with
      | typeVariable owner owned => exact resolve_eq_ok_iff.mpr (.typeVariable owner owned)
      | primitive kind free tame keyword plain =>
          exact resolve_eq_ok_iff.mpr (.primitive kind free tame keyword plain)
      | wildcard bounds free wild each =>
          rw [Reference.declaredNodes_arrayOf] at same
          refine resolve_eq_ok_iff.mpr (.wildcard bounds free wild ?_)
          refine resolveAll_eq_ok_of_forall each fun constraint among reference inside found => ?_
          refine fromConstraints constraint among found fun node deeper => same node ?_
          exact Reference.mem_declaredNodesOfAll_iff.mpr ⟨reference, inside, deeper⟩
      | declared target references free tame keyword found each =>
          obtain ⟨here, below⟩ := List.forall_mem_cons.mp same
          refine resolve_eq_ok_iff.mpr (.declared target references free tame keyword here ?_)
          refine resolveAll_eq_ok_of_forall each fun argument among reference inside found => ?_
          obtain ⟨list, present, member⟩ := argumentList_mem among
          refine fromArguments list present argument member found fun node deeper => below node ?_
          exact Reference.mem_declaredNodesOfAll_iff.mpr ⟨reference, inside, deeper⟩

end Signature

theorem resolveText_of_declaredNodes {lookup other : Lookup} {scopes : List Scope} {text : String}
    {reference : Reference} (resolved : resolveText lookup scopes text = .ok reference)
    (same : ∀ node ∈ reference.declaredNodes, other node.2 = some node.1) :
    resolveText other scopes text = .ok reference := by
  obtain ⟨signature, parsed, found⟩ := resolveText_eq_ok_iff.mp resolved
  exact resolveText_eq_ok_iff.mpr
    ⟨signature, parsed, Signature.resolve_of_declaredNodes found same⟩

namespace Catalog

variable {catalog : Catalog} {qualified : String}

/-- After a removal a lookup finds the first of the other handles that spell the name. -/
theorem Indexed.lookup?_remove (indexed : catalog.Indexed) (handle : Handle) (qualified : String) :
    (catalog.remove handle).lookup? qualified =
      (catalog.allPackages.flatMap Package.handles).find? fun other =>
        decide (other ≠ handle) && catalog.spells qualified other := by
  obtain ⟨packages, registry⟩ := indexed.remove_eq handle
  have listed : (catalog.remove handle).allPackages.flatMap Package.handles =
      (catalog.allPackages.flatMap Package.handles).filter fun other => other ≠ handle := by
    rw [allPackages, packages, registry, ← List.map_append, flatMap_handles_keep, allPackages]
  rw [(indexed.remove handle).lookup?_eq_find?, listed, List.find?_filter]
  congr 1
  funext other
  by_cases same : other = handle
  · simp [same]
  · have stays : (catalog.remove handle).declaration? other = catalog.declaration? other := by
      rw [declaration?_remove, if_neg same]
    simp only [spells, qualifiedName?, stays, same, ne_eq, not_false_eq_true, decide_true,
      true_and, Bool.true_and, Bool.decide_eq_true]

/-- A removal makes no name known. -/
theorem Indexed.lookup?_remove_within (indexed : catalog.Indexed) (handle : Handle) :
    Lookup.Within (catalog.remove handle).lookup? catalog.lookup? := by
  intro qualified found
  rw [indexed.lookup?_remove, List.find?_isSome] at found
  rw [indexed.lookup?_eq_find?, List.find?_isSome]
  obtain ⟨other, listed, spelled⟩ := found
  exact ⟨other, listed, (Bool.and_eq_true_iff.mp spelled).2⟩

/-- A removal changes no name that leads to another handle. -/
theorem Indexed.lookup?_remove_of_ne (indexed : catalog.Indexed) {handle other : Handle}
    (found : catalog.lookup? qualified = some other) (different : other ≠ handle) :
    (catalog.remove handle).lookup? qualified = some other := by
  rw [indexed.lookup?_eq_find?, List.find?_eq_some_iff_append] at found
  obtain ⟨spelled, before, after, listed, unspelled⟩ := found
  rw [indexed.lookup?_remove, List.find?_eq_some_iff_append]
  refine ⟨by simp [different, spelled], before, after, listed, ?_⟩
  intro earlier inside
  simpa using Or.inr (unspelled earlier inside)

/-- Every name that leads anywhere leads to a live declaration. -/
def FindsLive (catalog : Catalog) : Prop :=
  ∀ qualified handle, catalog.lookup? qualified = some handle → catalog.isLive handle = true

/-- An indexed catalog finds live declarations only. -/
theorem Indexed.findsLive (indexed : catalog.Indexed) : catalog.FindsLive := by
  intro qualified handle leads
  obtain ⟨declaration, found, -⟩ :=
    Option.map_eq_some_iff.mp (indexed.qualifiedName?_of_lookup? leads)
  simp [isLive, found]

/-- What resolves where names lead to live declarations mentions live declarations only. -/
theorem FindsLive.isLive_of_resolve (findsLive : catalog.FindsLive) {scopes : List Scope}
    {signature : Signature} {reference : Reference}
    (resolved : signature.resolve catalog.lookup? scopes = .ok reference) :
    ∀ target ∈ reference.targets, catalog.isLive target = true := by
  intro target mentioned
  rw [Reference.targets_eq_map_declaredNodes] at mentioned
  obtain ⟨node, inside, rfl⟩ := List.mem_map.mp mentioned
  exact findsLive node.2 node.1 (Signature.lookup_of_mem_declaredNodes resolved node inside)

theorem FindsLive.isLive_of_resolveText (findsLive : catalog.FindsLive) {scopes : List Scope}
    {text : String} {reference : Reference}
    (resolved : resolveText catalog.lookup? scopes text = .ok reference) :
    ∀ target ∈ reference.targets, catalog.isLive target = true := by
  obtain ⟨signature, -, found⟩ := resolveText_eq_ok_iff.mp resolved
  exact findsLive.isLive_of_resolve found

/-- A reference does not dangle when all of its targets are live. -/
theorem dangles_eq_false_iff {reference : Reference} :
    catalog.dangles reference = false ↔
      ∀ target ∈ reference.targets, catalog.isLive target = true := by
  simp [dangles, List.any_eq_false]

theorem FindsLive.not_dangles (findsLive : catalog.FindsLive) {scopes : List Scope}
    {text : String} {reference : Reference}
    (resolved : resolveText catalog.lookup? scopes text = .ok reference) :
    catalog.dangles reference = false :=
  dangles_eq_false_iff.mpr (findsLive.isLive_of_resolveText resolved)

/-- A removal acts on a text in one of three ways: a failure stays a failure, a reference without
the handle stays the same, and a reference with it is lost or replaced by one that neither mentions
the handle nor dangles. -/
structure RetractsFrom (catalog : Catalog) (handle : Handle) (scopes : List Scope)
    (text : String) : Prop where
  failed : ∀ unresolved, resolveText catalog.lookup? scopes text = .error unresolved →
    ∃ later, resolveText (catalog.remove handle).lookup? scopes text = .error later
  unmentioned : ∀ reference, resolveText catalog.lookup? scopes text = .ok reference →
    handle ∉ reference.targets →
      resolveText (catalog.remove handle).lookup? scopes text = .ok reference
  mentioned : ∀ reference, resolveText catalog.lookup? scopes text = .ok reference →
    handle ∈ reference.targets → ∀ later,
      resolveText (catalog.remove handle).lookup? scopes text = .ok later →
        handle ∉ later.targets ∧ (catalog.remove handle).dangles later = false

/-- After every history without a renaming, a removal acts on every text in these ways. -/
theorem performAll_retractsFrom {commands : List Command}
    (named : ∀ command ∈ commands, command.EditsWithin Declaration.SameName) (handle : Handle)
    (scopes : List Scope) (text : String) :
    (Catalog.empty.performAll commands).RetractsFrom handle scopes text := by
  have indexed := performAll_indexed named
  constructor
  case failed =>
    intro unresolved failed
    cases result : resolveText ((Catalog.empty.performAll commands).remove handle).lookup? scopes
        text with
    | error later => exact ⟨later, rfl⟩
    | ok reference =>
        obtain ⟨other, resolved⟩ :=
          resolveText_isOk_mono (indexed.lookup?_remove_within handle) ⟨reference, result⟩
        rw [failed] at resolved
        cases resolved
  case unmentioned =>
    intro reference resolved unmentioned
    apply resolveText_of_declaredNodes resolved
    intro node inside
    apply indexed.lookup?_remove_of_ne
      (lookup_of_mem_declaredNodes_of_resolveText resolved node inside)
    rintro rfl
    apply unmentioned
    rw [Reference.targets_eq_map_declaredNodes]
    exact List.mem_map_of_mem inside
  case mentioned =>
    intro reference _ _ later resolved
    have findsLive := (indexed.remove handle).findsLive
    constructor
    · intro mentioned
      have dead := findsLive.isLive_of_resolveText resolved handle mentioned
      rw [isLive_remove] at dead
      simp at dead
    · exact findsLive.not_dangles resolved

/-- The removal of the first of three declarations that spell one name uncovers the second one. -/
theorem performAll_retractsFrom_ambiguous :
    let catalog := Catalog.empty.performAll ambiguous
    let scopes := [Scope.mk (.declaration ⟨4⟩) ["T"]]
    (∀ command ∈ ambiguous, command.EditsWithin Declaration.SameName) ∧
      resolveText catalog.lookup? scopes "a.b.C<T>[]" =
        .ok (.declared ⟨4⟩ "a.b.C" [.typeVariable "T" (.declaration ⟨4⟩)] 1) ∧
      resolveText (catalog.remove ⟨4⟩).lookup? scopes "a.b.C<T>[]" =
        .ok (.declared ⟨1⟩ "a.b.C" [.typeVariable "T" (.declaration ⟨4⟩)] 1) ∧
      catalog.RetractsFrom ⟨4⟩ scopes "a.b.C<T>[]" := by
  intro catalog scopes
  have named : ∀ command ∈ ambiguous, command.EditsWithin Declaration.SameName := by
    simp [ambiguous, Command.EditsWithin, Declaration.SameName, Declaration.withMember]
  have before : resolveText catalog.lookup? scopes "a.b.C<T>[]" =
      .ok (.declared ⟨4⟩ "a.b.C" [.typeVariable "T" (.declaration ⟨4⟩)] 1) := by
    decide +kernel
  have after : resolveText (catalog.remove ⟨4⟩).lookup? scopes "a.b.C<T>[]" =
      .ok (.declared ⟨1⟩ "a.b.C" [.typeVariable "T" (.declaration ⟨4⟩)] 1) := by
    decide +kernel
  exact ⟨named, before, after, performAll_retractsFrom named ⟨4⟩ scopes "a.b.C<T>[]"⟩

end Catalog

end TypeGraph
