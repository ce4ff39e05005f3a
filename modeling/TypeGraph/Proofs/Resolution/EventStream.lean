import Mathlib.Algebra.GroupWithZero.Nat
import TypeGraph.Proofs.Catalog.Installation
import TypeGraph.Proofs.Resolution.Account
import TypeGraph.Resolution.Sink

/-!
This file reads the summary of a run off its notices. Every report has one cause before it, removals
stand between cause and report, and the ends of the passes count the removals.
-/

namespace TypeGraph

/-! ### Views of events -/

namespace Event

/-- Only a report has a context. -/
def context? (event : Event) : Option String :=
  event.problem?.map Problem.context

/-- An event at the level of an error or a warning is shown with its context and its message. -/
def shown? (event : Event) : Option Diagnostic :=
  match event.level, event.context? with
  | .error, some context => some ⟨.error, context, event.message⟩
  | .warning, some context => some ⟨.warning, context, event.message⟩
  | _, _ => none

/-- What is shown at these levels is what is reported. -/
theorem shown?_eq (event : Event) : event.shown? = event.problem?.map Problem.diagnostic := by
  cases event with
  | reported problem => cases problem <;> rfl
  | unresolved => rfl
  | removingMember => rfl
  | removingDeclaration => rfl
  | passFinished => rfl
  | installed => rfl
  | finished => rfl

/-- A removal leads to the report of a problem, and it has the cause that the problem names. -/
def removal? : Event → Option (Problem × Failure)
  | .removingMember label cause => some (.memberRemoved label cause, cause)
  | .removingDeclaration name cause => some (.declarationRemoved name cause, cause)
  | _ => none

/-- The name of a removed declaration stands in the event of its removal. -/
def removedName? : Event → Option String
  | .removingDeclaration name _ => some name
  | _ => none

/-- A note says that a signature did not resolve, and nothing else is traced. -/
def isNote (event : Event) : Bool :=
  event.level = .trace ∧ event.message = "signature did not resolve"

end Event

/-- The end of a pass is given by its number, the count of its removals and the pass around it. -/
def Notice.finishedPass? : Notice → Option (Nat × Nat × Option Nat)
  | ⟨.passFinished number removed, pass⟩ => some (number, removed, pass)
  | _ => none

/-! ### Disciplined notices -/

/-- Every removal stands directly between the note of its cause and the report of its problem. -/
def Orderly (notices : List Notice) : Prop :=
  ∀ earlier notice later, notices = earlier ++ notice :: later →
    ∀ problem cause, notice.event.removal? = some (problem, cause) →
      (∃ front text, earlier = front ++ [⟨.unresolved ⟨text, cause⟩, notice.pass⟩]) ∧
        ∃ back, later = ⟨.reported problem, notice.pass⟩ :: back

/-- Orderly notices stay orderly one behind the other, as no removal stands at the border. -/
theorem Orderly.append {first second : List Notice} (orderly : Orderly first)
    (later : Orderly second) : Orderly (first ++ second) := by
  intro front notice back whole problem cause removal
  rcases List.append_eq_append_iff.mp whole with
    ⟨between, rfl, rest⟩ | ⟨between, isFirst, rest⟩
  · obtain ⟨⟨beginning, text, rfl⟩, follows⟩ :=
      later between notice back rest problem cause removal
    exact ⟨⟨first ++ beginning, text, by rw [List.append_assoc]⟩, follows⟩
  · cases between with
    | nil =>
        rw [List.append_nil] at isFirst
        subst isFirst
        obtain ⟨⟨beginning, text, impossible⟩, -⟩ :=
          later [] notice back rest.symm problem cause removal
        simp at impossible
    | cons head inner =>
        obtain ⟨rfl, rfl⟩ := List.cons.inj rest
        obtain ⟨precedes, ending, rfl⟩ :=
          orderly front notice inner isFirst problem cause removal
        exact ⟨precedes, ending ++ second, rfl⟩

/-- Notices without a removal are orderly. -/
theorem orderly_of_removal?_eq_none {notices : List Notice}
    (none : ∀ notice ∈ notices, notice.event.removal? = none) : Orderly notices := by
  intro earlier notice later whole problem cause removal
  rw [none notice (by simp [whole])] at removal
  cases removal

/-- A removal with its cause and its report is orderly. -/
theorem orderly_removal {event : Event} {problem : Problem} {entry : Unresolved}
    (removes : event.removal? = some (problem, entry.cause)) (pass : Option Nat) :
    Orderly [⟨.unresolved entry, pass⟩, ⟨event, pass⟩, ⟨.reported problem, pass⟩] := by
  intro earlier notice later whole other cause removal
  match earlier with
  | [] =>
      obtain ⟨rfl, rfl⟩ := List.cons.inj whole
      cases removal
  | [first] =>
      simp only [List.cons_append, List.nil_append, List.cons.injEq] at whole
      obtain ⟨rfl, rfl, rfl⟩ := whole
      obtain ⟨rfl, rfl⟩ := Prod.mk.inj (Option.some.inj (removes.symm.trans removal))
      exact ⟨⟨[], entry.text, rfl⟩, [], rfl⟩
  | [first, second] =>
      simp only [List.cons_append, List.nil_append, List.cons.injEq] at whole
      obtain ⟨rfl, rfl, rfl, rfl⟩ := whole
      cases removal
  | first :: second :: third :: rest => simp at whole

/-- Disciplined notices are orderly and note as many failures as they report problems. -/
structure Disciplined (notices : List Notice) : Prop where
  balanced : (notices.countP fun notice => notice.event.isNote) =
    (notices.countP fun notice => notice.event.level = .error) +
      notices.countP fun notice => notice.event.level = .warning
  orderly : Orderly notices

namespace Disciplined

theorem nil : Disciplined [] :=
  ⟨rfl, orderly_of_removal?_eq_none nofun⟩

/-- Disciplined notices stay disciplined one behind the other. -/
theorem append {first second : List Notice} (disciplined : Disciplined first)
    (later : Disciplined second) : Disciplined (first ++ second) where
  balanced := by
    have now := disciplined.balanced
    have next := later.balanced
    simp only [List.countP_append]
    omega
  orderly := disciplined.orderly.append later.orderly

/-- Notices that are disciplined item by item are disciplined. -/
theorem flatMap {Item : Type} {items : List Item} {notices : Item → List Notice}
    (each : ∀ item ∈ items, Disciplined (notices item)) :
    Disciplined (items.flatMap notices) := by
  induction items with
  | nil => exact .nil
  | cons item rest inductionHypothesis =>
      obtain ⟨first, others⟩ := List.forall_mem_cons.mp each
      exact first.append (inductionHypothesis others)

theorem passFinished (number removed : Nat) (pass : Option Nat) :
    Disciplined [⟨.passFinished number removed, pass⟩] :=
  ⟨rfl, orderly_of_removal?_eq_none (by simp [Event.removal?])⟩

/-- Failed bounds are noted first and reported then, so the counts agree. -/
theorem failedBounds (failures : List FailedBound) (pass : Option Nat) :
    Disciplined ((FailedBound.events failures).map fun event => ⟨event, pass⟩) where
  balanced := by
    simp [FailedBound.events, FailedBound.problem, List.countP_append, List.countP_map,
      Function.comp_def, Event.isNote, Event.level, Event.message, Problem.severity,
      Severity.level]
  orderly := by
    apply orderly_of_removal?_eq_none
    simp only [FailedBound.events, List.map_append, List.map_map, List.mem_append, List.mem_map]
    rintro notice (⟨failure, -, rfl⟩ | ⟨failure, -, rfl⟩) <;> rfl

/-- Incidents are disciplined, whatever pass they happen in. -/
theorem incident (incident : Incident) (pass : Option Nat) :
    Disciplined (incident.events.map fun event => ⟨event, pass⟩) := by
  cases incident with
  | boundsFailed failures => exact failedBounds failures pass
  | memberRemoved label entry => exact ⟨rfl, orderly_removal rfl pass⟩
  | interfaceDropped holder entry =>
      exact ⟨rfl, orderly_of_removal?_eq_none (by simp [Incident.events, Event.removal?])⟩
  | declarationRemoved loss entry =>
      have removal : Disciplined
          ([.unresolved entry, .removingDeclaration loss.name entry.cause,
            .reported (.declarationRemoved loss.name entry.cause)].map fun event =>
              ⟨event, pass⟩) := ⟨rfl, orderly_removal rfl pass⟩
      rw [Incident.events, List.map_append]
      exact (failedBounds loss.failures pass).append removal

end Disciplined

/-! ### Notices of passes -/

/-- The details of a pass are the events of its incidents. -/
def Event.isDetail : Event → Bool
  | .unresolved _ => true
  | .removingMember _ _ => true
  | .removingDeclaration _ _ => true
  | .reported _ => true
  | _ => false

/-- The events of an incident are details of a pass. -/
theorem Incident.isDetail_of_mem_events {incident : Incident} :
    ∀ event ∈ incident.events, event.isDetail = true := by
  cases incident <;> simp [events, FailedBound.events, Event.isDetail, or_imp, forall_and]

/-- An incident names the declaration that it removes. -/
theorem Incident.removedNames_events (incident : Incident) :
    incident.events.filterMap Event.removedName? = (incident.loss?.map Loss.name).toList := by
  have silent : ∀ failures : List FailedBound,
      (FailedBound.events failures).filterMap Event.removedName? = [] := by
    intro failures
    simp [FailedBound.events, Event.removedName?]
  cases incident with
  | boundsFailed failures => exact silent failures
  | memberRemoved => rfl
  | interfaceDropped => rfl
  | declarationRemoved loss entry =>
      rw [events, List.filterMap_append, silent]
      rfl

namespace Catalog

variable {catalog : Catalog} {policy : InterfacePolicy}

/-- A pass names the declarations that it removes. -/
theorem removedNames_pass (catalog : Catalog) (policy : InterfacePolicy) :
    (catalog.pass policy).events.filterMap Event.removedName? = (catalog.pass policy).removed := by
  obtain ⟨incidents, explained⟩ := pass_explained catalog policy fun _ listed => listed
  calc (catalog.pass policy).events.filterMap Event.removedName?
      = incidents.flatMap fun incident => incident.events.filterMap Event.removedName? := by
        rw [explained.events, List.filterMap_flatMap]
    _ = (incidents.filterMap Incident.loss?).map Loss.name := by
        simp only [Incident.removedNames_events, List.map_filterMap]
        exact (List.filterMap_eq_flatMap_toList _ _).symm
    _ = (catalog.falls policy).map Moment.name := by
        rw [← explained.losses, List.map_map]
        rfl
    _ = (catalog.pass policy).removed := (removed_pass catalog policy).symm

/-- The notices of a pass are disciplined, incident by incident. -/
theorem passNotices_disciplined (number : Nat) (catalog : Catalog) (policy : InterfacePolicy) :
    Disciplined (passNotices number (catalog.pass policy)) := by
  obtain ⟨incidents, explained⟩ := pass_explained catalog policy fun _ listed => listed
  rw [passNotices, List.map_append, explained.events, List.map_flatMap]
  exact (Disciplined.flatMap fun incident _ => .incident incident _).append
    (.passFinished number _ _)

/-- A pass ends once, under its own number and with the count of its removals. -/
theorem finishedPasses_passNotices (number : Nat) (catalog : Catalog) (policy : InterfacePolicy) :
    (passNotices number (catalog.pass policy)).filterMap Notice.finishedPass? =
      [(number, (catalog.pass policy).removed.length, some number)] := by
  have silent : ((catalog.pass policy).events.map fun event =>
      (⟨event, some number⟩ : Notice)).filterMap Notice.finishedPass? = [] := by
    rw [List.filterMap_map, List.filterMap_eq_nil_iff]
    intro event happened
    obtain ⟨incident, belongs⟩ := exists_incident_of_mem_pass happened
    have detail := Incident.isDetail_of_mem_events event belongs
    cases event <;> first | rfl | cases detail
  rw [passNotices, List.map_append, List.filterMap_append, silent]
  rfl

/-- The notices of a pass name what it removes. -/
theorem removedNames_passNotices (number : Nat) (catalog : Catalog) (policy : InterfacePolicy) :
    ((passNotices number (catalog.pass policy)).filterMap fun notice =>
      notice.event.removedName?) = (catalog.pass policy).removed := by
  rw [passNotices, List.filterMap_map, List.filterMap_append]
  exact (List.append_nil _).trans (removedNames_pass catalog policy)

/-- No notice of a pass has the level of the closing one. -/
theorem level_of_mem_passNotices {number : Nat} {notice : Notice}
    (inside : notice ∈ passNotices number (catalog.pass policy)) :
    notice.event.level ≠ .information := by
  obtain ⟨event, happened, rfl⟩ := List.mem_map.mp inside
  rcases List.mem_append.mp happened with detailed | finished
  · obtain ⟨incident, belongs⟩ := exists_incident_of_mem_pass detailed
    have detail := Incident.isDetail_of_mem_events event belongs
    cases event with
    | reported problem => cases problem <;> exact nofun
    | unresolved => exact nofun
    | removingMember => exact nofun
    | removingDeclaration => exact nofun
    | passFinished => cases detail
    | installed => cases detail
    | finished => cases detail
  · rw [List.mem_singleton.mp finished]
    exact nofun

/-! ### Notices of runs -/

/-- The notices of a run are faithful to its summary. They are disciplined, every pass ends in its
own span with the count of its removals, the removed names are those of the summary, and the only
information comes last and outside of all passes. -/
structure IsFaithful (run : Run) : Prop where
  disciplined : Disciplined run.notices
  passes : ∃ counts : List Nat,
    run.notices.filterMap Notice.finishedPass? =
        ((counts.zipIdx 1).map fun entry => (entry.2, entry.1, some entry.2)) ∧
      counts.length = run.summary.passes ∧ (∀ count ∈ counts.dropLast, 0 < count) ∧
      counts.getLast? = some 0 ∧ counts.sum = run.summary.removed.length
  names : (run.notices.filterMap fun notice => notice.event.removedName?) = run.summary.removed
  last : ∃ others,
    run.notices = others ++ [⟨.finished run.summary.passes run.summary.removed.length
      run.summary.tally.removedMembers run.catalog.entryCount, none⟩] ∧
    ∀ notice ∈ others, notice.event.level ≠ .information

/-- The notices of several passes are those of the passes, one after another. -/
theorem stageNotices_faithful (stages : List Catalog) (policy : InterfacePolicy) (number : Nat) :
    Disciplined (stageNotices policy number stages) ∧
      (stageNotices policy number stages).filterMap Notice.finishedPass? =
        (((stages.map fun stage => (stage.pass policy).removed.length).zipIdx number).map
          fun entry => (entry.2, entry.1, some entry.2)) ∧
      ((stageNotices policy number stages).filterMap fun notice => notice.event.removedName?) =
        (stages.flatMap fun stage => (stage.pass policy).removed) ∧
      ∀ notice ∈ stageNotices policy number stages, notice.event.level ≠ .information := by
  induction stages generalizing number with
  | nil => exact ⟨.nil, rfl, rfl, nofun⟩
  | cons stage rest inductionHypothesis =>
      obtain ⟨disciplined, passes, names, details⟩ := inductionHypothesis (number + 1)
      have split : stageNotices policy number (stage :: rest) =
          passNotices number (stage.pass policy) ++ stageNotices policy (number + 1) rest := rfl
      rw [split]
      refine ⟨(passNotices_disciplined number stage policy).append disciplined, ?_, ?_, ?_⟩
      · rw [List.filterMap_append, finishedPasses_passNotices, passes]
        rfl
      · rw [List.filterMap_append, removedNames_passNotices, names]
        rfl
      · intro notice inside
        rcases List.mem_append.mp inside with first | later
        · exact level_of_mem_passNotices first
        · exact details notice later

/-- An announced installation is no part of a pass. -/
theorem snd_prepare_faithful (catalog : Catalog) (options : Options) :
    Disciplined (catalog.prepare options).2 ∧
      (catalog.prepare options).2.filterMap Notice.finishedPass? = [] ∧
      ((catalog.prepare options).2.filterMap fun notice => notice.event.removedName?) = [] ∧
      ∀ notice ∈ (catalog.prepare options).2, notice.event.level ≠ .information := by
  rcases catalog.additions_eq_nil_or options with ⟨-, same⟩ | ⟨-, -, same⟩
  · rw [same]
    exact ⟨.nil, rfl, rfl, nofun⟩
  · rw [same]
    refine ⟨⟨rfl, orderly_of_removal?_eq_none (by simp [Event.removal?])⟩, rfl, rfl, ?_⟩
    intro notice inside
    rw [List.mem_singleton.mp inside]
    exact nofun

/-- A run that converged ends with one notice after those of its preparation and its passes. -/
theorem notices_resolve_of_converged {options : Options}
    (converged : (catalog.resolve options).summary.converged = true) :
    (catalog.resolve options).notices =
      ((catalog.prepare options).2 ++
        stageNotices options.policy 1 ((catalog.prepare options).1.stages options.policy
          (catalog.resolve options).summary.passes)) ++
      [⟨.finished (catalog.resolve options).summary.passes
        (catalog.resolve options).summary.removed.length
        (catalog.resolve options).summary.tally.removedMembers
        (catalog.resolve options).catalog.entryCount, none⟩] := by
  rw [notices_resolve, limitNotices, closingNotices, if_pos converged, if_pos converged,
    List.append_nil]

/-- The removals of a run that converged are counted pass by pass, and only the last has none. -/
theorem ConsistsOf.removals {run : Run} {start : Catalog} {options : Options} {done count : Nat}
    (consists : ConsistsOf run start options done count)
    (converged : run.summary.converged = true) :
    let removals := (start.stages options.policy count).map fun stage =>
      (stage.pass options.policy).removed.length
    removals.length = count ∧ (∀ removed ∈ removals.dropLast, 0 < removed) ∧
      removals.getLast? = some 0 ∧ removals.sum = run.summary.removed.length := by
  intro removals
  refine ⟨?_, ?_, ?_, ?_⟩
  · rw [List.length_map, length_stages]
  · intro removed listed
    rw [← List.map_dropLast] at listed
    obtain ⟨stage, earlier, rfl⟩ := List.mem_map.mp listed
    exact List.length_pos_iff.mpr (consists.removing stage earlier)
  · obtain ⟨earlier, rfl, -, still⟩ := consists.converged converged
    unfold removals
    rw [stages_succ_last, List.map_append, List.getLast?_append]
    simp [still]
  · rw [consists.removed, removed_passes, List.length_flatMap]

/-- The notices of a run that converged are faithful to its summary. -/
theorem isFaithful_of_converged {options : Options}
    (converged : (catalog.resolve options).summary.converged = true) :
    IsFaithful (catalog.resolve options) := by
  have notices := notices_resolve_of_converged converged
  have consists := repeatPasses_consistsOf_passes (catalog.prepare options).1 options
  rw [← summary_resolve] at consists
  obtain ⟨counted, positive, still, total⟩ := consists.removals converged
  obtain ⟨opened, unfinished, unnamed, quiet⟩ := snd_prepare_faithful catalog options
  obtain ⟨disciplined, passes, names, details⟩ :=
    stageNotices_faithful ((catalog.prepare options).1.stages options.policy
      (catalog.resolve options).summary.passes) options.policy 1
  constructor
  case disciplined =>
    have closed : Disciplined [⟨.finished (catalog.resolve options).summary.passes
        (catalog.resolve options).summary.removed.length
        (catalog.resolve options).summary.tally.removedMembers
        (catalog.resolve options).catalog.entryCount, none⟩] :=
      ⟨rfl, orderly_of_removal?_eq_none (by simp [Event.removal?])⟩
    rw [notices]
    exact (opened.append disciplined).append closed
  case passes =>
    refine ⟨_, ?_, counted, positive, still, total⟩
    rw [notices, List.filterMap_append, List.filterMap_append, unfinished, passes]
    exact List.append_nil _
  case names =>
    have removed : (catalog.resolve options).summary.removed = _ :=
      consists.removed.trans (removed_passes _ _ _)
    rw [notices, List.filterMap_append, List.filterMap_append, unnamed, names, removed]
    exact List.append_nil _
  case last =>
    refine ⟨_, notices, ?_⟩
    intro notice inside
    rcases List.mem_append.mp inside with opening | staged
    · exact quiet notice opening
    · exact details notice staged

/-- A traced resolution comes to the catalog and the summary of a collected one. What it shows as
errors and warnings is what the collector has, and its notices are faithful to the summary. -/
theorem resolveTraced_isFaithful (catalog : Catalog) :
    catalog.resolveInto .standard .collector [] =
        ⟨catalog.resolveTraced.catalog, catalog.resolveTraced.summary,
          catalog.resolveTraced.notices.filterMap fun notice => notice.event.shown?⟩ ∧
      IsFaithful catalog.resolveTraced := by
  have converged : (catalog.resolve .standard).summary.converged = true :=
    repeatPasses_converged rfl _ 0
  have shown : Notice.diagnostics (catalog.resolve .standard).notices =
      (catalog.resolve .standard).notices.filterMap fun notice => notice.event.shown? := by
    simp only [Notice.diagnostics, Event.diagnostics, List.filterMap_map, List.map_filterMap,
      Function.comp_def, Event.shown?_eq]
  constructor
  · rw [resolveInto, Sink.foldl_collector, List.nil_append, shown]
    rfl
  · exact isFaithful_of_converged converged

end Catalog

end TypeGraph
