import Mathlib.Data.List.Count
import TypeGraph.Proofs.Resolution.Declaration

/-!
This file explains the events of a resolution by incidents. An incident is one loss with all of its
events, and every bound that fails in one was open before and is not open afterwards.
-/

namespace TypeGraph

/-- The bounds of a holder are numbered through all of its type parameters. -/
structure BoundPlace where
  holder : String
  number : Nat
  text : String
deriving DecidableEq

/-- A failed bound is given by its holder, its number there and its failure. -/
structure FailedBound where
  holder : String
  number : Nat
  unresolved : Unresolved
deriving DecidableEq

namespace FailedBound

/-- The place of a failed bound has the text that did not resolve. -/
def place (failed : FailedBound) : BoundPlace :=
  ⟨failed.holder, failed.number, failed.unresolved.text⟩

/-- The problem of a failed bound is a warning. -/
def problem (failed : FailedBound) : Problem :=
  .boundUnresolved failed.holder failed.unresolved

/-- Bounds that fail together are all noted before the first one is reported. -/
def events (failures : List FailedBound) : List Event :=
  (failures.map fun failed => Event.unresolved failed.unresolved) ++
    failures.map fun failed => Event.reported failed.problem

end FailedBound

/-- A loss is a declaration that was removed with the own bounds that failed before it did. -/
structure Loss where
  name : String
  failures : List FailedBound
deriving DecidableEq

/-- Incidents are the things that a resolution reports, each as one group of events. -/
inductive Incident where
  | boundsFailed (failures : List FailedBound)
  | memberRemoved (label : String) (entry : Unresolved)
  | interfaceDropped (holder : String) (entry : Unresolved)
  | declarationRemoved (loss : Loss) (entry : Unresolved)

namespace Incident

/-- The events of an incident stand next to each other. -/
def events : Incident → List Event
  | .boundsFailed failures => FailedBound.events failures
  | .memberRemoved label entry =>
      [.unresolved entry, .removingMember label entry.cause,
        .reported (.memberRemoved label entry.cause)]
  | .interfaceDropped holder entry =>
      [.unresolved entry, .reported (.interfaceDropped holder entry)]
  | .declarationRemoved loss entry =>
      FailedBound.events loss.failures ++
        [.unresolved entry, .removingDeclaration loss.name entry.cause,
          .reported (.declarationRemoved loss.name entry.cause)]

/-- A removed declaration is not counted, and neither are the bounds that failed in it. -/
def tally : Incident → Tally
  | .boundsFailed failures => ⟨0, 0, failures.length⟩
  | .memberRemoved _ _ => ⟨1, 0, 0⟩
  | .interfaceDropped _ _ => ⟨0, 1, 0⟩
  | .declarationRemoved _ _ => .zero

/-- Bounds fail in an incident of their own, or right before the fall of their declaration. -/
def failures : Incident → List FailedBound
  | .boundsFailed failures => failures
  | .memberRemoved _ _ => []
  | .interfaceDropped _ _ => []
  | .declarationRemoved loss _ => loss.failures

/-- The loss of an incident is the declaration that it removes. -/
def loss? : Incident → Option Loss
  | .declarationRemoved loss _ => some loss
  | _ => none

/-- The problems of an incident are what its events report. -/
def problems : Incident → List Problem
  | .boundsFailed failures => failures.map FailedBound.problem
  | .memberRemoved label entry => [.memberRemoved label entry.cause]
  | .interfaceDropped holder entry => [.interfaceDropped holder entry]
  | .declarationRemoved loss entry =>
      loss.failures.map FailedBound.problem ++ [.declarationRemoved loss.name entry.cause]

/-- The total of several incidents adds their tallies. -/
def total : List Incident → Tally
  | [] => .zero
  | incident :: rest => incident.tally + total rest

/-- Tallies add up over incidents. -/
theorem total_append (first second : List Incident) :
    total (first ++ second) = total first + total second := by
  induction first with
  | nil => exact (Tally.zero_add _).symm
  | cons incident rest inductionHypothesis =>
      simp only [List.cons_append, total, inductionHypothesis, Tally.add_assoc]

/-- Every failed bound reports one problem, and the notes in front report none. -/
theorem problems_failureEvents (failures : List FailedBound) :
    (FailedBound.events failures).filterMap Event.problem? = failures.map FailedBound.problem := by
  simp [FailedBound.events, List.filterMap_map, Function.comp_def, Event.problem?]

/-- The events of an incident report its problems in order. -/
theorem problems_events (incident : Incident) :
    incident.events.filterMap Event.problem? = incident.problems := by
  cases incident with
  | boundsFailed failures => exact problems_failureEvents failures
  | memberRemoved => rfl
  | interfaceDropped => rfl
  | declarationRemoved loss entry =>
      rw [events, problems, List.filterMap_append, problems_failureEvents]
      rfl

/-- No incident is the refusal of an installation. -/
theorem not_refused_of_mem_events {incident : Incident} {event : Event}
    (inside : event ∈ incident.events) (refusal : Refusal) :
    event ≠ .reported (.installationRefused refusal) := by
  rintro rfl
  have reported : Problem.installationRefused refusal ∈ incident.problems := by
    rw [← problems_events]
    exact List.mem_filterMap.mpr ⟨_, inside, rfl⟩
  cases incident <;> simp [problems, FailedBound.problem] at reported

/-- The places of all bounds that fail in several incidents. -/
def failedPlaces (incidents : List Incident) : List BoundPlace :=
  (incidents.flatMap failures).map FailedBound.place

@[simp] theorem failedPlaces_append (first second : List Incident) :
    failedPlaces (first ++ second) = failedPlaces first ++ failedPlaces second := by
  simp [failedPlaces]

end Incident

/-- Incidents explain the events, the tally and the losses of some work on bounds. A bound that
fails was open before the work, and it is not open after it. -/
structure Explains (incidents : List Incident) (events : List Event) (tally : Tally)
    (losses : List Loss) (before after : List BoundPlace) : Prop where
  events : events = incidents.flatMap Incident.events
  tally : tally = Incident.total incidents
  losses : losses = incidents.filterMap Incident.loss?
  conserved : ∀ place,
    (Incident.failedPlaces incidents).count place + after.count place ≤ before.count place

namespace Explains

variable {incidents others : List Incident} {events laterEvents : List Event}
  {tally laterTally : Tally} {losses laterLosses : List Loss}
  {before between after otherBefore otherAfter : List BoundPlace}

/-- Nothing needs no explanation, and bounds may go out of sight. -/
theorem nothing (fewer : ∀ place, after.count place ≤ before.count place) :
    Explains [] [] .zero [] before after :=
  ⟨rfl, rfl, rfl, fun place => by simpa [Incident.failedPlaces] using fewer place⟩

theorem refl (bounds : List BoundPlace) : Explains [] [] .zero [] bounds bounds :=
  nothing fun _ => Nat.le_refl _

/-- Work on the same bounds is explained one piece after the other. -/
theorem andThen (first : Explains incidents events tally losses before between)
    (later : Explains others laterEvents laterTally laterLosses between after) :
    Explains (incidents ++ others) (events ++ laterEvents) (tally + laterTally)
      (losses ++ laterLosses) before after where
  events := by rw [first.events, later.events, List.flatMap_append]
  tally := by rw [first.tally, later.tally, Incident.total_append]
  losses := by rw [first.losses, later.losses, List.filterMap_append]
  conserved := by
    intro place
    have now := first.conserved place
    have next := later.conserved place
    rw [Incident.failedPlaces_append, List.count_append]
    omega

/-- Work on different bounds is explained side by side. -/
theorem beside (first : Explains incidents events tally losses before after)
    (later : Explains others laterEvents laterTally laterLosses otherBefore otherAfter) :
    Explains (incidents ++ others) (events ++ laterEvents) (tally + laterTally)
      (losses ++ laterLosses) (before ++ otherBefore) (after ++ otherAfter) where
  events := by rw [first.events, later.events, List.flatMap_append]
  tally := by rw [first.tally, later.tally, Incident.total_append]
  losses := by rw [first.losses, later.losses, List.filterMap_append]
  conserved := by
    intro place
    have now := first.conserved place
    have next := later.conserved place
    simp only [Incident.failedPlaces_append, List.count_append]
    omega

end Explains

/-- A slot that does not resolve is reported by its text. -/
theorem Slot.text_of_settle_eq_error {lookup : Lookup} {scopes : List Scope} {slot : Slot}
    {unresolved : Unresolved} (failed : slot.settle lookup scopes = .error unresolved) :
    unresolved.text = slot.text := by
  unfold settle resolveText at failed
  cases parsed : Signature.parse slot.text with
  | error malformed =>
      rw [parsed] at failed
      cases failed
      rfl
  | ok signature =>
      rw [parsed] at failed
      dsimp only at failed
      cases resolved : signature.resolve lookup scopes with
      | error failure =>
          rw [resolved] at failed
          cases failed
          rfl
      | ok reference =>
          rw [resolved] at failed
          cases failed

/-! ### Bounds -/

namespace TypeParameter

variable (lookup : Lookup) (scopes : List Scope)

/-- The bounds of type parameters that fail now, with their numbers. -/
def failedBounds (holder : String) (parameters : List TypeParameter) : List FailedBound :=
  (parameters.flatMap bounds).zipIdx.filterMap fun entry =>
    (entry.1.failure? lookup scopes).map fun unresolved => ⟨holder, entry.2, unresolved⟩

/-- The open bounds of type parameters are those without a mark. -/
def openBounds (holder : String) (parameters : List TypeParameter) : List BoundPlace :=
  ((parameters.flatMap bounds).zipIdx.filter fun entry => !entry.1.unresolvable).map fun entry =>
    ⟨holder, entry.2, entry.1.slot.text⟩

/-- The failures among bounds are what the failed bounds could not resolve. -/
theorem failures_eq_map (holder : String) (parameters : List TypeParameter) :
    failures lookup scopes parameters =
      (failedBounds lookup scopes holder parameters).map FailedBound.unresolved := by
  have unnumbered := List.filterMap_map (f := Prod.fst) (l := (parameters.flatMap bounds).zipIdx)
    (g := fun bound : Bound => bound.failure? lookup scopes)
  rw [List.zipIdx_map_fst] at unnumbered
  rw [failures, ← List.filterMap_flatMap, unnumbered, failedBounds, List.map_filterMap]
  simp only [Option.map_map, Function.comp_def, Option.map_id']

/-- The events of failures are those of the failed bounds. -/
theorem failureEvents_eq (holder : String) (parameters : List TypeParameter) :
    failureEvents holder (failures lookup scopes parameters) =
      FailedBound.events (failedBounds lookup scopes holder parameters) := by
  have held : ∀ failed ∈ failedBounds lookup scopes holder parameters, failed.holder = holder := by
    intro failed inside
    obtain ⟨entry, -, made⟩ := List.mem_filterMap.mp inside
    obtain ⟨unresolved, -, rfl⟩ := Option.map_eq_some_iff.mp made
    rfl
  rw [failureEvents, FailedBound.events, failures_eq_map lookup scopes holder, List.map_map,
    List.map_map]
  refine congrArg _ (List.map_congr_left fun failed inside => ?_)
  rw [Function.comp_apply, FailedBound.problem, held failed inside]

/-- An open bound fails and is marked, or it stays open. -/
theorem count_bounds (holder : String) (entries : List (Bound × Nat)) (place : BoundPlace) :
    ((entries.filterMap fun entry => (entry.1.failure? lookup scopes).map fun unresolved =>
        FailedBound.mk holder entry.2 unresolved).map FailedBound.place).count place +
      (((entries.map fun entry => (entry.1.settle lookup scopes, entry.2)).filter fun entry =>
        !entry.1.unresolvable).map fun entry =>
          BoundPlace.mk holder entry.2 entry.1.slot.text).count place =
      ((entries.filter fun entry => !entry.1.unresolvable).map fun entry =>
        BoundPlace.mk holder entry.2 entry.1.slot.text).count place := by
  induction entries with
  | nil => rfl
  | cons entry rest inductionHypothesis =>
      obtain ⟨first, number⟩ := entry
      by_cases marked : first.unresolvable = true
      · have failure : first.failure? lookup scopes = none := by simp [Bound.failure?, marked]
        have settled : first.settle lookup scopes = first := by simp [Bound.settle, marked]
        simpa [failure, settled, marked] using inductionHypothesis
      · cases result : first.slot.settle lookup scopes with
        | error unresolved =>
            have sameText := Slot.text_of_settle_eq_error result
            have failure : first.failure? lookup scopes = some unresolved := by
              simp [Bound.failure?, marked, result]
            have settled : (first.settle lookup scopes).unresolvable = true := by
              simp [Bound.settle, marked, result]
            simp [failure, settled, marked, sameText, List.count_cons, FailedBound.place]
            omega
        | ok slot =>
            obtain ⟨-, rfl⟩ := Slot.settle_eq_ok_iff.mp result
            have failure : first.failure? lookup scopes = none := by
              simp [Bound.failure?, marked, result]
            have settled : first.settle lookup scopes =
                ⟨first.slot.fill lookup scopes, false⟩ := by
              simp [Bound.settle, marked, result]
            simp [failure, settled, marked, Slot.fill, List.count_cons]
            omega

/-- Settled bounds keep their numbers. -/
theorem zipIdx_settleAll (holder : String) (parameters : List TypeParameter) :
    ((settleAll lookup scopes holder parameters).value.flatMap bounds).zipIdx =
      (parameters.flatMap bounds).zipIdx.map fun entry =>
        (entry.1.settle lookup scopes, entry.2) := by
  have settled : (settleAll lookup scopes holder parameters).value.flatMap bounds =
      (parameters.flatMap bounds).map fun bound => bound.settle lookup scopes := by
    rw [settleAll, List.flatMap_map, List.map_flatMap]
    rfl
  rw [settled, List.zipIdx_map]
  rfl

/-- Settled bounds are explained by their failures. -/
theorem settleAll_explained (holder : String) (parameters : List TypeParameter) :
    Explains [.boundsFailed (failedBounds lookup scopes holder parameters)]
      (settleAll lookup scopes holder parameters).events
      (settleAll lookup scopes holder parameters).tally [] (openBounds holder parameters)
      (openBounds holder (settleAll lookup scopes holder parameters).value) where
  events := by simp [settleAll, Incident.events, failureEvents_eq]
  tally := by
    simp [settleAll, Incident.total, Incident.tally, failures_eq_map lookup scopes holder]
  losses := rfl
  conserved := by
    intro place
    have counted := count_bounds lookup scopes holder (parameters.flatMap bounds).zipIdx place
    rw [openBounds, openBounds, zipIdx_settleAll]
    simp only [Incident.failedPlaces, List.flatMap_cons, List.flatMap_nil, List.append_nil,
      Incident.failures, failedBounds]
    omega

end TypeParameter

/-! ### Members -/

namespace Member

variable (site : Site)

/-- The open bounds of a member stand under its label. -/
def openBounds (holder : String) (member : Member) : List BoundPlace :=
  TypeParameter.openBounds (member.label holder) member.typeParameters

/-- A settled member is explained by its failed bounds and by its removal if it is removed. -/
theorem settle_explained (member : Member) :
    ∃ incidents, Explains incidents (member.settle site).events (member.settle site).tally []
      (member.openBounds site.name)
      ((member.settle site).value.toList.flatMap fun settled => settled.openBounds site.name) := by
  have bounds := TypeParameter.settleAll_explained site.lookup (site.scopesOf member)
    (member.label site.name) member.typeParameters
  unfold settle
  dsimp only
  split
  next settled result =>
    obtain ⟨-, rfl⟩ := settleOwn_settleBounds_eq_ok_iff.mp result
    have same : (member.fill site).openBounds site.name =
        TypeParameter.openBounds (member.label site.name)
          (TypeParameter.settleAll site.lookup (site.scopesOf member) (member.label site.name)
            member.typeParameters).value := by
      simp only [openBounds, label, fill, render_fillIn, typeParameters_fillIn,
        TypeParameter.settleAll, TypeParameter.settle_eq_fill]
    simp only [Option.toList_some, List.flatMap_cons, List.flatMap_nil, List.append_nil, same]
    exact ⟨_, bounds⟩
  next unresolved result =>
    have removal : ∀ before, Explains [.memberRemoved (member.label site.name) unresolved]
        [.unresolved unresolved, .removingMember (member.label site.name) unresolved.cause,
          .reported (.memberRemoved (member.label site.name) unresolved.cause)]
        ⟨1, 0, 0⟩ [] before [] :=
      fun _ => ⟨rfl, rfl, rfl, fun _ => by simp [Incident.failedPlaces, Incident.failures]⟩
    exact ⟨_, bounds.andThen (removal _)⟩

/-- The incidents of a round explain what it does to the open bounds of all members. -/
theorem settleRound_explained (kind : MemberKind) (members : List Member) :
    ∃ incidents, Explains incidents (settleRound site kind members).events
      (settleRound site kind members).tally []
      (members.flatMap fun member => member.openBounds site.name)
      ((settleRound site kind members).value.flatMap fun member =>
        member.openBounds site.name) := by
  induction members with
  | nil => exact ⟨[], .refl []⟩
  | cons member rest inductionHypothesis =>
      obtain ⟨others, later⟩ := inductionHypothesis
      by_cases sameKind : member.kind = kind
      · obtain ⟨incidents, first⟩ := settle_explained site member
        simp only [settleRound, if_pos sameKind, List.flatMap_cons, List.flatMap_append]
        exact ⟨_, first.beside later⟩
      · simp only [settleRound, if_neg sameKind, List.flatMap_cons]
        have kept := (Explains.refl (member.openBounds site.name)).beside later
        simp only [List.nil_append, Tally.zero_add] at kept
        exact ⟨others, kept⟩

/-- The rounds together are explained by the incidents of each. -/
theorem settleRounds_explained (kinds : List MemberKind) (members : List Member) :
    ∃ incidents, Explains incidents (settleRounds site kinds members).events
      (settleRounds site kinds members).tally []
      (members.flatMap fun member => member.openBounds site.name)
      ((settleRounds site kinds members).value.flatMap fun member =>
        member.openBounds site.name) := by
  induction kinds generalizing members with
  | nil => exact ⟨[], .refl _⟩
  | cons kind rest inductionHypothesis =>
      obtain ⟨incidents, first⟩ := settleRound_explained site kind members
      obtain ⟨others, later⟩ := inductionHypothesis (settleRound site kind members).value
      exact ⟨_, first.andThen later⟩

end Member

/-! ### Declarations -/

/-- Interface entries that settle are explained by those that were dropped. -/
theorem Slot.settleInterfaces_explained {site : Site} {policy : InterfacePolicy}
    {slots : List Slot} {settled : Settled (List Slot)}
    (result : settleInterfaces site policy slots = .ok settled) :
    ∃ incidents, Explains incidents settled.events settled.tally [] [] [] := by
  induction slots generalizing settled with
  | nil =>
      cases result
      exact ⟨[], .refl []⟩
  | cons slot rest inductionHypothesis =>
      unfold settleInterfaces at result
      cases first : slot.settle site.lookup [site.scope] with
      | ok filled =>
          rw [first] at result
          cases others : settleInterfaces site policy rest with
          | error unresolved => simp [others] at result
          | ok later =>
              obtain ⟨incidents, explained⟩ := inductionHypothesis others
              simp only [others, Except.ok.injEq] at result
              subst result
              exact ⟨incidents, explained⟩
      | error unresolved =>
          rw [first] at result
          cases policy with
          | removeDeclaration => simp at result
          | dropEntry =>
              cases others : settleInterfaces site .dropEntry rest with
              | error other => simp [others] at result
              | ok later =>
                  obtain ⟨incidents, explained⟩ := inductionHypothesis others
                  have dropped : Explains [.interfaceDropped site.name unresolved]
                      [.unresolved unresolved,
                        .reported (.interfaceDropped site.name unresolved)]
                      ⟨0, 1, 0⟩ [] [] [] :=
                    ⟨rfl, rfl, rfl, fun _ => by simp [Incident.failedPlaces, Incident.failures]⟩
                  simp only [others, Except.ok.injEq] at result
                  subst result
                  exact ⟨_, dropped.andThen explained⟩

namespace Declaration

variable {lookup : Lookup} {policy : InterfacePolicy} {handle : Handle}

/-- The open bounds of a declaration are its own and those of its members. -/
def openBounds (declaration : Declaration) : List BoundPlace :=
  TypeParameter.openBounds declaration.qualifiedName declaration.typeParameters ++
    declaration.members.flatMap fun member => member.openBounds declaration.qualifiedName

/-- The own bounds of a declaration that fail when it is settled now; marked ones do not. -/
def failures (lookup : Lookup) (handle : Handle) (declaration : Declaration) : List FailedBound :=
  TypeParameter.failedBounds lookup [(declaration.site lookup handle).scope]
    declaration.qualifiedName declaration.typeParameters

/-- A declaration that settles is explained by the failures and losses of its parts. -/
theorem settle_explained {declaration settled : Declaration} {tally : Tally}
    (result : (declaration.settle lookup policy handle).result = .ok (settled, tally)) :
    ∃ incidents, Explains incidents (declaration.settle lookup policy handle).events tally []
      declaration.openBounds settled.openBounds := by
  have bounds := TypeParameter.settleAll_explained lookup
    [(declaration.site lookup handle).scope] declaration.qualifiedName declaration.typeParameters
  obtain ⟨losses, members⟩ := Member.settleRounds_explained (declaration.site lookup handle)
    declaration.kind.settledMembers declaration.members
  unfold settle at result ⊢
  dsimp only at result ⊢
  cases kind : declaration.kind.settle (declaration.site lookup handle) with
  | error unresolved => simp [kind] at result
  | ok settledKind =>
      cases entries : Slot.settleInterfaces (declaration.site lookup handle) policy
          declaration.interfaces with
      | error unresolved => simp [kind, entries] at result
      | ok interfaces =>
          obtain ⟨drops, dropped⟩ := Slot.settleInterfaces_explained entries
          simp only [kind, entries, Except.ok.injEq, Prod.mk.injEq] at result ⊢
          obtain ⟨rfl, rfl⟩ := result
          have parts := (bounds.beside dropped).beside members
          simp only [List.append_nil] at parts
          exact ⟨_, parts⟩

/-- A declaration that fails has reported its failed bounds and noted the text that decided. -/
theorem exists_entry_of_settle {declaration : Declaration} {cause : Failure}
    (result : (declaration.settle lookup policy handle).result = .error cause) :
    ∃ entry : Unresolved, entry.cause = cause ∧
      (declaration.settle lookup policy handle).events =
        FailedBound.events (declaration.failures lookup handle) ++ [.unresolved entry] := by
  rw [failures, ← TypeParameter.failureEvents_eq]
  unfold settle at result ⊢
  dsimp only at result ⊢
  cases kind : declaration.kind.settle (declaration.site lookup handle) with
  | error unresolved =>
      simp only [kind, Except.error.injEq] at result
      exact ⟨unresolved, result, rfl⟩
  | ok settledKind =>
      cases entries : Slot.settleInterfaces (declaration.site lookup handle) policy
          declaration.interfaces with
      | error unresolved =>
          simp only [kind, entries, Except.error.injEq] at result
          exact ⟨unresolved, result, rfl⟩
      | ok interfaces => simp [kind, entries] at result

end Declaration

end TypeGraph
