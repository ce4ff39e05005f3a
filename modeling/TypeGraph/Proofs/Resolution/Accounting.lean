import Mathlib.Algebra.GroupWithZero.Nat
import Mathlib.Data.List.Perm.Subperm
import TypeGraph.Proofs.Resolution.Account
import TypeGraph.Proofs.Resolution.Descent
import TypeGraph.Proofs.Resolution.Termination

/-!
This file shows that nothing is lost in silence and nothing is reported twice. The diagnostics of a
run are counted by its summary, and every bound is warned about at most once.
-/

namespace TypeGraph

/-! ### Messages about declarations -/

/-- The message about a removed declaration begins in a way of its own. -/
def Diagnostic.concernsDeclaration (diagnostic : Diagnostic) : Bool :=
  "Error while processing type '".toList.isPrefixOf diagnostic.message.toList

/-- What follows the beginning of a text does not change its first letter. -/
theorem head?_toList_append {start : String} {first : Char}
    (starts : start.toList.head? = some first) (rest : String) :
    (start ++ rest).toList.head? = some first := by
  rw [String.toList_append, List.head?_append, starts]
  exact Option.some_or

/-- No failure has a message that begins like the one about a removed declaration. -/
theorem Failure.head?_message (failure : Failure) : failure.message.toList.head? ≠ some 'E' := by
  cases failure with
  | malformed reason =>
      have starts : reason.message.toList.head? = some 'i' := by
        unfold Signature.Malformed.message
        iterate 5 apply head?_toList_append
        simp
      exact fun same => absurd (starts.symm.trans same) (by decide)
  | notFound name =>
      have starts : (notFound name).message.toList.head? = some 'T' := by
        unfold message
        iterate 2 apply head?_toList_append
        simp
      exact fun same => absurd (starts.symm.trans same) (by decide)
  | genericPrimitive name =>
      have starts : (genericPrimitive name).message.toList.head? = some 'p' := by
        unfold message
        iterate 2 apply head?_toList_append
        simp
      exact fun same => absurd (starts.symm.trans same) (by decide)

/-- The message about a removed declaration is known by its first letter. -/
theorem Diagnostic.head?_of_concernsDeclaration {diagnostic : Diagnostic}
    (concerns : diagnostic.concernsDeclaration = true) :
    diagnostic.message.toList.head? = some 'E' := by
  obtain ⟨rest, whole⟩ := List.isPrefixOf_iff_prefix.mp concerns
  rw [← whole, List.head?_append]
  simp

namespace Problem

/-- A removed declaration has the message that begins in this way. -/
theorem concernsDeclaration_declarationRemoved (name : String) (cause : Failure) :
    (declarationRemoved name cause).diagnostic.concernsDeclaration = true := by
  have spelled : (declarationRemoved name cause).message =
      "Error while processing type '" ++ (name ++ ("': " ++ cause.message)) := by
    unfold message
    dsimp only
    rw [String.append_assoc, String.append_assoc]
  unfold diagnostic
  rw [Diagnostic.concernsDeclaration, List.isPrefixOf_iff_prefix, spelled, String.toList_append]
  exact List.prefix_append _ _

/-- The message about a removed member is that of its failure, so it begins otherwise. -/
theorem not_concernsDeclaration_memberRemoved (label : String) (cause : Failure) :
    ¬ (memberRemoved label cause).diagnostic.concernsDeclaration = true :=
  fun concerns => cause.head?_message (Diagnostic.head?_of_concernsDeclaration concerns)

/-- The message about a dropped interface begins otherwise, too. -/
theorem not_concernsDeclaration_interfaceDropped (holder : String) (entry : Unresolved) :
    ¬ (interfaceDropped holder entry).diagnostic.concernsDeclaration = true := by
  intro concerns
  have starts : (interfaceDropped holder entry).message.toList.head? = some 'd' := by
    unfold message
    iterate 3 apply head?_toList_append
    simp
  have marked := Diagnostic.head?_of_concernsDeclaration concerns
  exact absurd (starts.symm.trans marked) (by decide)

end Problem

/-! ### Diagnostics of incidents -/

theorem Diagnostic.ofSeverity_append (severity : Severity) (first second : List Diagnostic) :
    ofSeverity severity (first ++ second) =
      ofSeverity severity first ++ ofSeverity severity second :=
  List.filter_append _ _

namespace Incident

/-- The diagnostics of several incidents are those of their problems. -/
def diagnostics (incidents : List Incident) : List Diagnostic :=
  (incidents.flatMap problems).map Problem.diagnostic

theorem diagnostics_cons (incident : Incident) (rest : List Incident) :
    diagnostics (incident :: rest) =
      incident.problems.map Problem.diagnostic ++ diagnostics rest := by
  simp [diagnostics]

/-- The events of incidents report exactly the diagnostics of the incidents. -/
theorem diagnostics_events (incidents : List Incident) :
    Event.diagnostics (incidents.flatMap events) = diagnostics incidents := by
  simp only [Event.diagnostics, diagnostics, List.filterMap_flatMap, problems_events]

/-- Failed bounds are warned about. -/
theorem ofSeverity_bounds (severity : Severity) (failures : List FailedBound) :
    Diagnostic.ofSeverity severity (failures.map fun failed => failed.problem.diagnostic) =
      if severity = .warning then failures.map fun failed => failed.problem.diagnostic
      else [] := by
  cases severity <;>
    simp [Diagnostic.ofSeverity, FailedBound.problem, Problem.diagnostic, Problem.severity,
      List.filter_eq_self, List.filter_eq_nil_iff]

/-- Every other problem is an error of its own. -/
theorem errors_problems (incident : Incident) :
    Diagnostic.ofSeverity .error (incident.problems.map Problem.diagnostic) =
      match incident with
      | .boundsFailed _ => []
      | .memberRemoved label entry => [(Problem.memberRemoved label entry.cause).diagnostic]
      | .interfaceDropped holder entry => [(Problem.interfaceDropped holder entry).diagnostic]
      | .declarationRemoved loss entry =>
          [(Problem.declarationRemoved loss.name entry.cause).diagnostic] := by
  cases incident with
  | boundsFailed failures =>
      simpa [problems, Function.comp_def] using ofSeverity_bounds .error failures
  | memberRemoved => rfl
  | interfaceDropped => rfl
  | declarationRemoved loss entry =>
      have bounds := ofSeverity_bounds .error loss.failures
      rw [if_neg (by decide)] at bounds
      rw [problems, List.map_append, List.map_map, Diagnostic.ofSeverity_append]
      simp only [Function.comp_def, bounds]
      rfl

/-- The failed bounds of an incident are its warnings. -/
theorem warnings_problems (incident : Incident) :
    Diagnostic.ofSeverity .warning (incident.problems.map Problem.diagnostic) =
      incident.failures.map fun failed => failed.problem.diagnostic := by
  cases incident with
  | boundsFailed failures =>
      simpa [problems, Incident.failures, Function.comp_def] using
        ofSeverity_bounds .warning failures
  | memberRemoved => rfl
  | interfaceDropped => rfl
  | declarationRemoved loss entry =>
      have bounds := ofSeverity_bounds .warning loss.failures
      rw [if_pos rfl] at bounds
      rw [problems, List.map_append, List.map_map, Diagnostic.ofSeverity_append]
      simp only [Function.comp_def, bounds, failures]
      exact List.append_nil _

/-- Errors are as many as declarations, members and interface entries were lost. -/
theorem length_errors (incidents : List Incident) :
    (Diagnostic.ofSeverity .error (diagnostics incidents)).length =
      (incidents.filterMap loss?).length + (total incidents).removedMembers +
        (total incidents).droppedInterfaces := by
  induction incidents with
  | nil => rfl
  | cons incident rest inductionHypothesis =>
      rw [diagnostics_cons, Diagnostic.ofSeverity_append, List.length_append,
        inductionHypothesis, errors_problems]
      cases incident <;> simp [total, tally, loss?, List.filterMap_cons] <;> omega

/-- The errors that concern declarations have the lost ones as contexts. -/
theorem contexts_errors (incidents : List Incident) :
    ((Diagnostic.ofSeverity .error (diagnostics incidents)).filter
        Diagnostic.concernsDeclaration).map Diagnostic.context =
      (incidents.filterMap loss?).map Loss.name := by
  induction incidents with
  | nil => rfl
  | cons incident rest inductionHypothesis =>
      rw [diagnostics_cons, Diagnostic.ofSeverity_append, List.filter_append, List.map_append,
        inductionHypothesis, errors_problems]
      cases incident with
      | boundsFailed => rfl
      | memberRemoved label entry =>
          have other := Problem.not_concernsDeclaration_memberRemoved label entry.cause
          simp [other, loss?, List.filterMap_cons]
      | interfaceDropped holder entry =>
          have other := Problem.not_concernsDeclaration_interfaceDropped holder entry
          simp [other, loss?, List.filterMap_cons]
      | declarationRemoved loss entry =>
          have own := Problem.concernsDeclaration_declarationRemoved loss.name entry.cause
          rw [List.filter_cons_of_pos own]
          rfl

/-- The warnings are those of the failed bounds. -/
theorem warnings_diagnostics (incidents : List Incident) :
    Diagnostic.ofSeverity .warning (diagnostics incidents) =
      (incidents.flatMap failures).map fun failed => failed.problem.diagnostic := by
  induction incidents with
  | nil => rfl
  | cons incident rest inductionHypothesis =>
      rw [diagnostics_cons, Diagnostic.ofSeverity_append, warnings_problems, inductionHypothesis,
        List.flatMap_cons, List.map_append]

/-- Failed bounds are counted, except for those of lost declarations. -/
theorem length_failures (incidents : List Incident) :
    (incidents.flatMap failures).length =
      (total incidents).unresolvedBounds +
        ((incidents.filterMap loss?).map fun loss => loss.failures.length).sum := by
  induction incidents with
  | nil => rfl
  | cons incident rest inductionHypothesis =>
      rw [List.flatMap_cons, List.length_append, inductionHypothesis]
      cases incident <;> simp [total, tally, loss?, failures, List.filterMap_cons] <;> omega

end Incident

namespace Catalog

variable {catalog : Catalog} {policy : InterfacePolicy} {options : Options}

/-! ### Entries -/

/-- Every fall in an indexed catalog takes one entry away. -/
theorem Indexed.entryCount_pass (indexed : catalog.Indexed) (policy : InterfacePolicy) :
    (catalog.pass policy).catalog.entryCount + (catalog.falls policy).length =
      catalog.entryCount := by
  obtain ⟨-, -, live⟩ := sweep_falls catalog policy catalog.visitOrder
  obtain ⟨once, listed, -⟩ := pass_falls catalog policy
  have distinct : catalog.handles.Nodup := by
    have all := indexed.once
    rw [allPackages, List.flatMap_append] at all
    exact (List.nodup_append.mp all).1
  have kept : (catalog.pass policy).catalog.handles =
      catalog.handles.filter fun handle =>
        !decide (handle ∈ (catalog.falls policy).map Moment.handle) := by
    rw [((Descends.refl indexed policy).pass indexed).handles_eq]
    apply List.filter_congr
    intro handle inside
    rw [pass, live, indexed.isLive_of_mem_handles inside, Bool.true_and, decide_not]
    rfl
  -- every handle has one entry, so as many entries are lost as handles fall
  have lost : (catalog.handles.filter fun handle =>
      decide (handle ∈ (catalog.falls policy).map Moment.handle)).Perm
        ((catalog.falls policy).map Moment.handle) := by
    refine (List.perm_ext_iff_of_nodup (distinct.filter _) once).mpr fun handle => ?_
    rw [List.mem_filter, decide_eq_true_iff, and_iff_right_iff_imp]
    intro falls
    obtain ⟨moment, isMoment, rfl⟩ := List.mem_map.mp falls
    exact (mem_liveHandles_iff.mp (listed moment isMoment)).1
  have split := catalog.handles.length_eq_length_filter_add fun handle =>
    decide (handle ∈ (catalog.falls policy).map Moment.handle)
  rw [lost.length_eq, List.length_map] at split
  rw [entryCount, entryCount, kept]
  omega

/-- Over any number of passes one entry goes with every removed declaration. -/
theorem Indexed.entryCount_passes (indexed : catalog.Indexed) (policy : InterfacePolicy)
    (count : Nat) :
    (catalog.passes policy count).catalog.entryCount + (catalog.allFalls policy count).length =
      catalog.entryCount := by
  induction count generalizing catalog with
  | zero => rfl
  | succ count inductionHypothesis =>
      have first := indexed.entryCount_pass policy
      have later := inductionHypothesis ((Descends.refl indexed policy).pass indexed).indexed
      have reached : (catalog.passes policy (count + 1)).catalog =
          ((catalog.pass policy).catalog.passes policy count).catalog := rfl
      rw [reached, allFalls, stages_succ, List.flatMap_cons, List.length_append, ← allFalls]
      omega

/-! ### Runs -/

/-- The open bounds of a catalog are those of its live declarations. -/
def openBounds (catalog : Catalog) : List BoundPlace :=
  catalog.declarations.flatMap fun entry => entry.2.openBounds

/-- The open bounds of a catalog are those of its listed handles. -/
theorem openBounds_eq (catalog : Catalog) :
    catalog.openBounds = catalog.openBoundsOf catalog.handles := by
  rw [openBounds, declarations, openBoundsOf]
  induction catalog.handles with
  | nil => rfl
  | cons handle rest inductionHypothesis =>
      cases found : catalog.declaration? handle with
      | none => simpa [openBoundsAt, found] using inductionHypothesis
      | some declaration => simpa [openBoundsAt, found] using inductionHypothesis

/-- The numbers of passes do not show in their diagnostics. -/
theorem diagnostics_stageNotices (catalog : Catalog) (policy : InterfacePolicy)
    (count number : Nat) :
    Notice.diagnostics (stageNotices policy number (catalog.stages policy count)) =
      Event.diagnostics (catalog.passes policy count).events := by
  induction count generalizing catalog number with
  | zero => rfl
  | succ count inductionHypothesis =>
      have split : stageNotices policy number (catalog.stages policy (count + 1)) =
          passNotices number (catalog.pass policy) ++
            stageNotices policy (number + 1)
              ((catalog.pass policy).catalog.stages policy count) := rfl
      rw [split, Notice.diagnostics_append, diagnostics_passNotices, inductionHypothesis,
        ← Event.diagnostics_append]
      rfl

/-- A run that was stopped by its limit ends with one more diagnostic. -/
def limitDiagnostics (summary : Summary) : List Diagnostic :=
  if summary.converged then [] else [(Problem.passLimit summary.passes).diagnostic]

/-- The diagnostic about a limit is a warning. -/
theorem ofSeverity_limitDiagnostics (severity : Severity) (summary : Summary) :
    Diagnostic.ofSeverity severity (limitDiagnostics summary) =
      if severity = .warning then limitDiagnostics summary else [] := by
  unfold limitDiagnostics
  cases severity <;> split <;> rfl

/-- A resolution reports what its passes report, and a limit that stopped it. -/
theorem diagnostics_resolve_eq (catalog : Catalog) (options : Options) :
    Notice.diagnostics (catalog.resolve options).notices =
      Event.diagnostics ((catalog.prepare options).1.passes options.policy
          (catalog.resolve options).summary.passes).events ++
        limitDiagnostics (catalog.resolve options).summary := by
  have opening : Notice.diagnostics (catalog.prepare options).2 = [] := by
    rcases catalog.additions_eq_nil_or options with ⟨-, same⟩ | ⟨-, -, same⟩ <;> rw [same] <;> rfl
  rw [notices_resolve, Notice.diagnostics_append, Notice.diagnostics_append,
    Notice.diagnostics_append, opening, diagnostics_stageNotices, diagnostics_closingNotices,
    List.nil_append, List.append_nil, limitNotices, limitDiagnostics]
  split <;> rfl

/-- Incidents explain the diagnostics, the tally and the removals of a resolution. The bounds that
fail in them were open at the start. -/
theorem resolve_explained (catalog : Catalog) (options : Options) :
    ∃ incidents : List Incident,
      Notice.diagnostics (catalog.resolve options).notices =
          Incident.diagnostics incidents ++ limitDiagnostics (catalog.resolve options).summary ∧
        (catalog.resolve options).summary.tally = Incident.total incidents ∧
        ((catalog.prepare options).1.allFalls options.policy
            (catalog.resolve options).summary.passes).map Moment.loss =
          incidents.filterMap Incident.loss? ∧
        (Incident.failedPlaces incidents).Subperm (catalog.prepare options).1.openBounds := by
  have consists := repeatPasses_consistsOf_passes (catalog.prepare options).1 options
  obtain ⟨incidents, explained⟩ := passes_explained (catalog.prepare options).1 options.policy
    (fun _ listed => listed) (catalog.resolve options).summary.passes
  refine ⟨incidents, ?_, ?_, explained.losses, ?_⟩
  · rw [diagnostics_resolve_eq, explained.events, Incident.diagnostics_events]
  · exact consists.tally.trans explained.tally
  · rw [List.subperm_ext_iff]
    intro place _
    have conserved := explained.conserved place
    rw [← openBounds_eq] at conserved
    omega

/-- A run accounts for everything that a catalog lost. Errors are as many as the summary counts,
those that concern declarations have the removed ones as contexts, and exactly these are missing
from the entries. The warnings, but for one about a limit, are those of bounds that failed. They are
as many as the summary counts and as failed in declarations at their falls, and each of them was
open at the start, so that none is warned about twice. -/
structure Accounts (before : Catalog) (options : Options) (run : Run) : Prop where
  removed : run.summary.removed =
    ((before.prepare options).1.allFalls options.policy run.summary.passes).map Moment.name
  errors : (Diagnostic.ofSeverity .error (Notice.diagnostics run.notices)).length =
    run.summary.removed.length + run.summary.tally.removedMembers +
      run.summary.tally.droppedInterfaces
  contexts : ((Diagnostic.ofSeverity .error (Notice.diagnostics run.notices)).filter
    Diagnostic.concernsDeclaration).map Diagnostic.context = run.summary.removed
  remaining : run.catalog.entryCount + run.summary.removed.length = before.entryCount
  warnings : ∃ warned : List FailedBound,
    Diagnostic.ofSeverity .warning (Notice.diagnostics run.notices) =
        (warned.map fun failed => failed.problem.diagnostic) ++ limitDiagnostics run.summary ∧
      warned.length = run.summary.tally.unresolvedBounds +
        (((before.prepare options).1.allFalls options.policy run.summary.passes).map
          fun moment => moment.failures.length).sum ∧
      (warned.map FailedBound.place).Subperm before.openBounds

/-- After any history without a renaming and under any options, a resolution accounts for
everything that the catalog lost. -/
theorem resolve_accounts {commands : List Command}
    (named : ∀ command ∈ commands, command.EditsWithin Declaration.SameName) (options : Options) :
    Accounts (Catalog.empty.performAll commands) options
      ((Catalog.empty.performAll commands).resolve options) := by
  have persists : Persists Indexed (fun _ => True) Declaration.SameName :=
    Indexed.persists fun _ _ => trivial
  have indexed := persists.performAll empty_indexed named
  have separated := performAll_isSeparated commands
  generalize Catalog.empty.performAll commands = catalog at indexed separated ⊢
  have consists := repeatPasses_consistsOf_passes (catalog.prepare options).1 options
  obtain ⟨incidents, report, tally, losses, bounds⟩ := resolve_explained catalog options
  have removed : (catalog.resolve options).summary.removed = _ :=
    consists.removed.trans (removed_passes_eq_map _ _ _)
  have lost : (catalog.resolve options).summary.removed =
      (incidents.filterMap Incident.loss?).map Loss.name := by
    rw [removed, ← losses, List.map_map]
    rfl
  -- the only diagnostic that no incident explains is a warning, so no error is beside them
  have errors : Diagnostic.ofSeverity .error
      (Notice.diagnostics (catalog.resolve options).notices) =
        Diagnostic.ofSeverity .error (Incident.diagnostics incidents) := by
    rw [report, Diagnostic.ofSeverity_append, ofSeverity_limitDiagnostics, if_neg (by decide),
      List.append_nil]
  constructor
  case removed => exact removed
  case errors => rw [errors, Incident.length_errors, lost, List.length_map, tally]
  case contexts => rw [errors, Incident.contexts_errors, lost]
  case remaining =>
    have entries := (persists.prepare indexed options).entryCount_passes options.policy
      (catalog.resolve options).summary.passes
    have start : (catalog.prepare options).1.entryCount = catalog.entryCount := by
      rw [entryCount, entryCount, (prepare_installs catalog options).handles_eq]
    have reached : (catalog.resolve options).catalog = _ := consists.catalog
    rw [removed, List.length_map, reached, ← start]
    exact entries
  case warnings =>
    refine ⟨incidents.flatMap Incident.failures, ?_, ?_, ?_⟩
    · rw [report, Diagnostic.ofSeverity_append, ofSeverity_limitDiagnostics, if_pos rfl,
        Incident.warnings_diagnostics]
    · rw [Incident.length_failures, tally, ← losses, List.map_map]
      rfl
    · rw [openBounds, separated.declarations_prepare] at bounds
      exact bounds

/-- In this history one class lives on without a bound and without a field, and another class falls
together with a bound of its own. -/
def wasteful : List Command :=
  [.addPackage "p",
    .declare "p" (((Declaration.newClass "A").withTypeParameter
      (.ofTexts "T" ["p.Lost"])).withMember (.field ⟨"b", .ofText "p.Lost"⟩)),
    .declare "p" (((Declaration.newClass "B").withTypeParameter
      (.ofTexts "T" ["p.Lost"])).withSupertype "p.Lost")]

/-- The run removes a class and a field, and of the two failed bounds it counts the one that lives
on. -/
theorem resolve_accounts_wasteful :
    (∀ command ∈ wasteful, command.EditsWithin Declaration.SameName) ∧
      ((Catalog.empty.performAll wasteful).resolve .standard).summary =
        ⟨2, ["p.B"], ⟨1, 0, 1⟩, true⟩ ∧
      Accounts (Catalog.empty.performAll wasteful) .standard
        ((Catalog.empty.performAll wasteful).resolve .standard) := by
  have named : ∀ command ∈ wasteful, command.EditsWithin Declaration.SameName := by
    simp [wasteful, Command.EditsWithin]
  have summary : ((Catalog.empty.performAll wasteful).resolve .standard).summary =
      ⟨2, ["p.B"], ⟨1, 0, 1⟩, true⟩ := by
    decide +kernel
  exact ⟨named, summary, resolve_accounts named .standard⟩

end Catalog

end TypeGraph
