import TypeGraph.Resolution.Lookup

/-!
This file takes the resolution of a signature apart. A list resolves part by part, a signature
resolves in one of four ways, and a lookup that knows more names resolves more signatures.
-/

namespace TypeGraph

namespace Reference

mutual

/-- The declared nodes of a reference pair every handle with the name by which it was found. -/
def declaredNodes : Reference → List (Handle × String)
  | .primitive _ => []
  | .typeVariable _ _ => []
  | .wildcard _ bounds => declaredNodesOfAll bounds
  | .array element _ => element.declaredNodes
  | .declared target name arguments _ => (target, name) :: declaredNodesOfAll arguments

/-- The declared nodes of a list are those of its members in order. -/
def declaredNodesOfAll : List Reference → List (Handle × String)
  | [] => []
  | reference :: rest => reference.declaredNodes ++ declaredNodesOfAll rest

end

/-- The declared nodes of a list are those of its members. -/
theorem mem_declaredNodesOfAll_iff {references : List Reference} {node : Handle × String} :
    node ∈ declaredNodesOfAll references ↔
      ∃ reference ∈ references, node ∈ reference.declaredNodes := by
  induction references with
  | nil => simp [declaredNodesOfAll]
  | cons reference rest inductionHypothesis => simp [declaredNodesOfAll, inductionHypothesis]

mutual

/-- The type variables of a reference are paired with their owners. -/
def typeVariables : Reference → List (String × VariableOwner)
  | .primitive _ => []
  | .typeVariable name owner => [(name, owner)]
  | .wildcard _ bounds => typeVariablesOfAll bounds
  | .array element _ => element.typeVariables
  | .declared _ _ arguments _ => typeVariablesOfAll arguments

/-- The type variables of a list are those of its members in order. -/
def typeVariablesOfAll : List Reference → List (String × VariableOwner)
  | [] => []
  | reference :: rest => reference.typeVariables ++ typeVariablesOfAll rest

end

/-- The type variables of a list are those of its members. -/
theorem mem_typeVariablesOfAll_iff {references : List Reference} {owned : String × VariableOwner} :
    owned ∈ typeVariablesOfAll references ↔
      ∃ reference ∈ references, owned ∈ reference.typeVariables := by
  induction references with
  | nil => simp [typeVariablesOfAll]
  | cons reference rest inductionHypothesis => simp [typeVariablesOfAll, inductionHypothesis]

/-- The targets of a reference are the handles of its declared nodes. -/
theorem targets_eq_map_declaredNodes (reference : Reference) :
    reference.targets = reference.declaredNodes.map Prod.fst := by
  have all : ∀ references : List Reference,
      (∀ reference ∈ references, reference.targets = reference.declaredNodes.map Prod.fst) →
        targetsOfAll references = (declaredNodesOfAll references).map Prod.fst := by
    intro references each
    induction references with
    | nil => rfl
    | cons reference rest inductionHypothesis =>
        rw [targetsOfAll, declaredNodesOfAll, List.map_append,
          each reference List.mem_cons_self,
          inductionHypothesis fun other member => each other (List.mem_cons_of_mem _ member)]
  induction reference using Reference.induct with
  | primitive kind => rfl
  | typeVariable name owner => rfl
  | wildcard bound bounds each => exact all bounds each
  | array element rank same => simpa [targets, declaredNodes] using same
  | declared target name arguments rank each =>
      simp only [targets, declaredNodes, List.map_cons, all arguments each]

/-- Dimensions change nothing about the declared nodes. -/
@[simp] theorem declaredNodes_arrayOf (element : Reference) (rank : Nat) :
    (arrayOf element rank).declaredNodes = element.declaredNodes := by
  unfold arrayOf
  split <;> rfl

/-- Dimensions change nothing about the type variables. -/
@[simp] theorem typeVariables_arrayOf (element : Reference) (rank : Nat) :
    (arrayOf element rank).typeVariables = element.typeVariables := by
  unfold arrayOf
  split <;> rfl

end Reference

/-- One lookup lies within another that finds every name that the first one finds. -/
def Lookup.Within (smaller larger : Lookup) : Prop :=
  ∀ name, (smaller name).isSome = true → (larger name).isSome = true

theorem Lookup.Within.refl (lookup : Lookup) : lookup.Within lookup :=
  fun _ found => found

theorem Lookup.Within.trans {first second third : Lookup} (lower : first.Within second)
    (upper : second.Within third) : first.Within third :=
  fun name found => upper name (lower name found)

namespace Signature

variable {lookup smaller larger : Lookup} {scopes : List Scope}

@[simp] theorem resolveAll_nil : resolveAll lookup scopes [] = .ok [] := by
  rw [resolveAll]

/-- A list resolves when its head and its tail do. -/
theorem resolveAll_cons_eq_ok_iff {signature : Signature} {rest : List Signature}
    {references : List Reference} :
    resolveAll lookup scopes (signature :: rest) = .ok references ↔
      ∃ reference others, signature.resolve lookup scopes = .ok reference ∧
        resolveAll lookup scopes rest = .ok others ∧ references = reference :: others := by
  rw [resolveAll]
  cases signature.resolve lookup scopes with
  | error failure => simp
  | ok reference =>
      cases resolveAll lookup scopes rest with
      | error failure => simp
      | ok others => simp [eq_comm]

/-- A list resolves when each of its members does. -/
theorem resolveAll_isOk_iff {signatures : List Signature} :
    (∃ references, resolveAll lookup scopes signatures = .ok references) ↔
      ∀ signature ∈ signatures, ∃ reference, signature.resolve lookup scopes = .ok reference := by
  induction signatures with
  | nil => simp
  | cons signature rest inductionHypothesis =>
      rw [List.forall_mem_cons, ← inductionHypothesis]
      constructor
      · intro parts
        obtain ⟨references, resolved⟩ := parts
        obtain ⟨reference, others, head, tail, -⟩ := resolveAll_cons_eq_ok_iff.mp resolved
        exact ⟨⟨reference, head⟩, others, tail⟩
      · intro parts
        obtain ⟨⟨reference, head⟩, others, tail⟩ := parts
        exact ⟨_, resolveAll_cons_eq_ok_iff.mpr ⟨reference, others, head, tail, rfl⟩⟩

/-- Every reference of a resolved list belongs to one of its signatures. -/
theorem exists_resolve_of_mem {signatures : List Signature} {references : List Reference}
    (resolved : resolveAll lookup scopes signatures = .ok references) {reference : Reference}
    (member : reference ∈ references) :
    ∃ signature ∈ signatures, signature.resolve lookup scopes = .ok reference := by
  induction signatures generalizing references with
  | nil =>
      rw [resolveAll_nil] at resolved
      cases resolved
      cases member
  | cons signature rest inductionHypothesis =>
      obtain ⟨first, others, head, tail, rfl⟩ := resolveAll_cons_eq_ok_iff.mp resolved
      rcases List.mem_cons.mp member with rfl | later
      · exact ⟨signature, List.mem_cons_self, head⟩
      · obtain ⟨found, among, same⟩ := inductionHypothesis tail later
        exact ⟨found, List.mem_cons_of_mem _ among, same⟩

/-- Absent arguments resolve like an empty list. -/
theorem resolveArguments_eq (arguments : Option (List Signature)) :
    resolveArguments lookup scopes arguments =
      resolveAll lookup scopes (arguments.getD []) := by
  cases arguments with
  | none => rfl
  | some list => rfl

/-- A signature means a variable, a wildcard, a primitive type or a declaration. -/
inductive Meaning (lookup : Lookup) (scopes : List Scope) (signature : Signature) :
    Reference → Prop where
  | typeVariable (owner : VariableOwner)
      (owned : Scope.owner? scopes signature.name = some owner) :
      Meaning lookup scopes signature (.arrayOf (.typeVariable signature.name owner) signature.rank)
  | wildcard (bounds : List Reference) (free : Scope.owner? scopes signature.name = none)
      (wild : signature.name = wildcardName)
      (resolved : resolveAll lookup scopes signature.constraints = .ok bounds) :
      Meaning lookup scopes signature (.arrayOf (.wildcard signature.bound bounds) signature.rank)
  | primitive (kind : Primitive) (free : Scope.owner? scopes signature.name = none)
      (tame : signature.name ≠ wildcardName)
      (keyword : Primitive.ofKeyword? signature.name = some kind)
      (plain : signature.arguments = none) :
      Meaning lookup scopes signature (.arrayOf (.primitive kind) signature.rank)
  | declared (target : Handle) (references : List Reference)
      (free : Scope.owner? scopes signature.name = none) (tame : signature.name ≠ wildcardName)
      (keyword : Primitive.ofKeyword? signature.name = none)
      (found : lookup signature.name = some target)
      (resolved : resolveAll lookup scopes signature.argumentList = .ok references) :
      Meaning lookup scopes signature (.declared target signature.name references signature.rank)

/-- A signature resolves to what it means. -/
theorem resolve_eq_ok_iff {signature : Signature} {reference : Reference} :
    signature.resolve lookup scopes = .ok reference ↔
      Meaning lookup scopes signature reference := by
  obtain ⟨name, arguments, rank, bound, constraints⟩ := signature
  rw [resolve]
  constructor
  · intro resolved
    split at resolved
    next owner owned =>
      cases resolved
      exact .typeVariable owner owned
    next free =>
      split at resolved
      next wild =>
        split at resolved
        next bounds each =>
          cases resolved
          exact .wildcard bounds free wild each
        next => cases resolved
      next tame =>
        split at resolved
        next kind keyword =>
          split at resolved
          next => cases resolved
          next plain =>
            cases resolved
            exact .primitive kind free tame keyword (by simpa using plain)
        next keyword =>
          split at resolved
          next => cases resolved
          next target found =>
            split at resolved
            next references each =>
              cases resolved
              exact .declared target references free tame keyword found
                (resolveArguments_eq arguments ▸ each)
            next => cases resolved
  · intro meaning
    cases meaning with
    | typeVariable owner owned =>
        simp only at owned
        simp [owned]
    | wildcard bounds free wild each =>
        simp only at free wild each
        subst wild
        simp [free, each]
    | primitive kind free tame keyword plain =>
        simp only at free tame keyword plain
        simp [free, tame, keyword, plain]
    | declared target references free tame keyword found each =>
        simp only [argumentList] at free tame keyword found each
        simp [free, tame, keyword, found, resolveArguments_eq, each]

/-- A member of the argument list is one of the arguments that are written. -/
theorem argumentList_mem {name : String} {arguments : Option (List Signature)} {rank : Nat}
    {bound : BoundKind} {constraints : List Signature} {argument : Signature}
    (member : argument ∈ argumentList ⟨name, arguments, rank, bound, constraints⟩) :
    ∃ list, arguments = some list ∧ argument ∈ list := by
  cases arguments with
  | none => cases member
  | some list => exact ⟨list, rfl, member⟩

/-- A property of all references that signatures resolve to follows when it passes from the parts
of such a reference to the whole. -/
theorem induct_resolve {motive : Reference → Prop}
    (typeVariable : ∀ name owner rank, Scope.owner? scopes name = some owner →
      motive (.arrayOf (.typeVariable name owner) rank))
    (wildcard : ∀ bound bounds rank, Scope.owner? scopes wildcardName = none →
      (∀ reference ∈ bounds, motive reference) → motive (.arrayOf (.wildcard bound bounds) rank))
    (primitive : ∀ kind rank, Scope.owner? scopes kind.keyword = none →
      motive (.arrayOf (.primitive kind) rank))
    (declared : ∀ target name arguments rank, Scope.owner? scopes name = none →
      lookup name = some target → (∀ reference ∈ arguments, motive reference) →
        motive (.declared target name arguments rank))
    {signature : Signature} {reference : Reference}
    (resolved : signature.resolve lookup scopes = .ok reference) : motive reference := by
  have all : ∀ signatures : List Signature, ∀ references,
      (∀ signature ∈ signatures, ∀ reference, signature.resolve lookup scopes = .ok reference →
        motive reference) →
      resolveAll lookup scopes signatures = .ok references →
        ∀ reference ∈ references, motive reference := by
    intro signatures references each resolved reference member
    obtain ⟨signature, among, found⟩ := exists_resolve_of_mem resolved member
    exact each signature among reference found
  induction signature using Signature.induct generalizing reference with
  | node name arguments rank bound constraints fromArguments fromConstraints =>
      cases resolve_eq_ok_iff.mp resolved with
      | typeVariable owner owned => exact typeVariable name owner rank owned
      | primitive kind free tame keyword plain =>
          exact primitive kind rank (Primitive.ofKeyword?_eq_some_iff.mp keyword ▸ free)
      | wildcard bounds free wild each =>
          exact wildcard bound bounds rank (wild ▸ free)
            (all constraints bounds (fun constraint among reference =>
              fromConstraints constraint among) each)
      | declared target references free tame keyword found each =>
          refine declared target name references rank free found (all _ references ?_ each)
          intro argument among reference
          obtain ⟨list, present, member⟩ := argumentList_mem among
          exact fromArguments list present argument member

/-- Every declared node of a resolved signature was found by its name. -/
theorem lookup_of_mem_declaredNodes {signature : Signature} {reference : Reference}
    (resolved : signature.resolve lookup scopes = .ok reference) :
    ∀ node ∈ reference.declaredNodes, lookup node.2 = some node.1 := by
  have all : ∀ references : List Reference,
      (∀ reference ∈ references, ∀ node ∈ reference.declaredNodes, lookup node.2 = some node.1) →
        ∀ node ∈ Reference.declaredNodesOfAll references, lookup node.2 = some node.1 := by
    intro references each node listed
    obtain ⟨reference, member, inside⟩ := Reference.mem_declaredNodesOfAll_iff.mp listed
    exact each reference member node inside
  refine induct_resolve (motive := fun reference =>
    ∀ node ∈ reference.declaredNodes, lookup node.2 = some node.1)
    ?typeVariable ?wildcard ?primitive ?declared resolved
  case typeVariable => simp [Reference.declaredNodes]
  case primitive => simp [Reference.declaredNodes]
  case wildcard =>
    intro bound bounds rank _ each
    rw [Reference.declaredNodes_arrayOf]
    exact all bounds each
  case declared =>
    intro target name arguments rank _ found each node inside
    rcases List.mem_cons.mp inside with rfl | deeper
    · exact found
    · exact all arguments each node deeper

/-- Every variable of a resolved signature has the owner that its name has in the scopes. -/
theorem owner?_of_mem_typeVariables {signature : Signature} {reference : Reference}
    (resolved : signature.resolve lookup scopes = .ok reference) :
    ∀ owned ∈ reference.typeVariables, Scope.owner? scopes owned.1 = some owned.2 := by
  have all : ∀ references : List Reference,
      (∀ reference ∈ references, ∀ owned ∈ reference.typeVariables,
        Scope.owner? scopes owned.1 = some owned.2) →
        ∀ owned ∈ Reference.typeVariablesOfAll references,
          Scope.owner? scopes owned.1 = some owned.2 := by
    intro references each owned listed
    obtain ⟨reference, member, inside⟩ := Reference.mem_typeVariablesOfAll_iff.mp listed
    exact each reference member owned inside
  refine induct_resolve (motive := fun reference =>
    ∀ owned ∈ reference.typeVariables, Scope.owner? scopes owned.1 = some owned.2)
    ?typeVariable ?wildcard ?primitive ?declared resolved
  case typeVariable =>
    intro name owner rank isOwner
    simpa [Reference.typeVariables] using isOwner
  case primitive => simp [Reference.typeVariables]
  case wildcard =>
    intro bound bounds rank _ each
    rw [Reference.typeVariables_arrayOf]
    exact all bounds each
  case declared => exact fun target name arguments rank _ _ each => all arguments each

/-- A lookup that finds more names resolves more signatures. -/
theorem resolve_isOk_mono (within : smaller.Within larger) {signature : Signature}
    (resolves : ∃ reference, signature.resolve smaller scopes = .ok reference) :
    ∃ reference, signature.resolve larger scopes = .ok reference := by
  induction signature using Signature.induct with
  | node name arguments rank bound constraints fromArguments fromConstraints =>
      obtain ⟨reference, resolved⟩ := resolves
      cases resolve_eq_ok_iff.mp resolved with
      | typeVariable owner owned => exact ⟨_, resolve_eq_ok_iff.mpr (.typeVariable owner owned)⟩
      | primitive kind free tame keyword plain =>
          exact ⟨_, resolve_eq_ok_iff.mpr (.primitive kind free tame keyword plain)⟩
      | wildcard bounds free wild resolvedSmaller =>
          have each := resolveAll_isOk_iff.mp ⟨bounds, resolvedSmaller⟩
          obtain ⟨others, resolvedLarger⟩ := resolveAll_isOk_iff.mpr fun constraint member =>
            fromConstraints constraint member (each constraint member)
          exact ⟨_, resolve_eq_ok_iff.mpr (.wildcard others free wild resolvedLarger)⟩
      | declared target references free tame keyword found resolvedSmaller =>
          obtain ⟨other, foundLarger⟩ := Option.isSome_iff_exists.mp
            (within name (by simp only at found; simp [found]))
          have each := resolveAll_isOk_iff.mp ⟨references, resolvedSmaller⟩
          obtain ⟨others, resolvedLarger⟩ := resolveAll_isOk_iff.mpr fun argument among => by
            obtain ⟨list, present, member⟩ := argumentList_mem among
            exact fromArguments list present argument member (each argument among)
          exact ⟨_, resolve_eq_ok_iff.mpr
            (.declared other others free tame keyword foundLarger resolvedLarger)⟩

end Signature

variable {lookup smaller larger : Lookup} {scopes : List Scope} {text : String}

/-- A text resolves when it can be read and what it denotes resolves. -/
theorem resolveText_eq_ok_iff {reference : Reference} :
    resolveText lookup scopes text = .ok reference ↔
      ∃ signature, Signature.parse text = .ok signature ∧
        signature.resolve lookup scopes = .ok reference := by
  unfold resolveText
  cases Signature.parse text with
  | error malformed => simp
  | ok signature =>
      cases resolved : signature.resolve lookup scopes <;> simp [resolved]

/-- A lookup that finds more names resolves more texts. -/
theorem resolveText_isOk_mono (within : smaller.Within larger)
    (resolves : ∃ reference, resolveText smaller scopes text = .ok reference) :
    ∃ reference, resolveText larger scopes text = .ok reference := by
  obtain ⟨reference, resolved⟩ := resolves
  obtain ⟨signature, parsed, found⟩ := resolveText_eq_ok_iff.mp resolved
  obtain ⟨other, foundLarger⟩ := Signature.resolve_isOk_mono within ⟨reference, found⟩
  exact ⟨other, resolveText_eq_ok_iff.mpr ⟨signature, parsed, foundLarger⟩⟩

/-- Every node of a resolved text was found under its name. -/
theorem lookup_of_mem_declaredNodes_of_resolveText {reference : Reference}
    (resolved : resolveText lookup scopes text = .ok reference) :
    ∀ node ∈ reference.declaredNodes, lookup node.2 = some node.1 := by
  obtain ⟨signature, -, found⟩ := resolveText_eq_ok_iff.mp resolved
  exact Signature.lookup_of_mem_declaredNodes found

/-- Every type variable of a resolved text has the owner that its scopes give. -/
theorem owner?_of_mem_typeVariables_of_resolveText {reference : Reference}
    (resolved : resolveText lookup scopes text = .ok reference) :
    ∀ owned ∈ reference.typeVariables, Scope.owner? scopes owned.1 = some owned.2 := by
  obtain ⟨signature, -, found⟩ := resolveText_eq_ok_iff.mp resolved
  exact Signature.owner?_of_mem_typeVariables found

end TypeGraph
