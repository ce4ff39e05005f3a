import TypeGraph.Proofs.Catalog.Separation

/-!
This file compares a run with the same run under a limit of passes. A limit that is not reached
changes nothing, and a run that it stops can be taken up again where it was stopped.
-/

namespace TypeGraph

/-- The same options with a limit of passes. -/
def Options.limitedTo (options : Options) (limit : Nat) : Options :=
  { options with passLimit := some limit }

theorem Options.isExhausted_limitedTo (options : Options) (limit done : Nat) :
    (options.limitedTo limit).isExhausted done = decide (limit ≤ done) := rfl

theorem Options.isExhausted_of_unlimited {options : Options} (unlimited : options.passLimit = none)
    (done : Nat) : options.isExhausted done = false := by
  simp [isExhausted, unlimited]

/-- Two stretches of passes before a run are one stretch. -/
theorem Run.after_after (run : Run) (first second : Progress)
    (firstNotices secondNotices : List Notice) :
    (run.after second secondNotices).after first firstNotices =
      run.after (first.andThen second) (firstNotices ++ secondNotices) := by
  simp [Run.after, Progress.andThen, Tally.add_assoc]

namespace Catalog

variable {catalog : Catalog} {options : Options} {done limit : Nat}

/-- A run without a limit makes at least one pass. -/
theorem lt_passes_repeatPasses (unlimited : options.passLimit = none) (catalog : Catalog)
    (done : Nat) : done < (catalog.repeatPasses options done).summary.passes := by
  induction catalog, done using repeatPasses.induct options with
  | case1 catalog done exhausted =>
      rw [Options.isExhausted_of_unlimited unlimited] at exhausted
      cases exhausted
  | case2 catalog done unexhausted progress stable =>
      rw [repeatPasses_of_stable (by simpa using unexhausted) stable]
      exact Nat.lt_succ_self done
  | case3 catalog done unexhausted progress unstable inductionHypothesis =>
      rw [repeatPasses_of_unstable (by simpa using unexhausted) unstable]
      exact Nat.lt_of_succ_lt inductionHypothesis

/-- Where the count of passes starts only shows in the numbers of the passes. -/
theorem repeatPasses_add (unlimited : options.passLimit = none) (catalog : Catalog)
    (done shift : Nat) :
    let early := catalog.repeatPasses options done
    let late := catalog.repeatPasses options (done + shift)
    late.catalog = early.catalog ∧
      late.summary = { early.summary with passes := early.summary.passes + shift } ∧
      Notice.diagnostics late.notices = Notice.diagnostics early.notices := by
  have unexhausted := Options.isExhausted_of_unlimited unlimited
  induction catalog, done using repeatPasses.induct options with
  | case1 catalog done exhausted =>
      rw [unexhausted] at exhausted
      cases exhausted
  | case2 catalog done _ progress stable =>
      simp only [repeatPasses_of_stable (unexhausted _) stable, diagnostics_passNotices]
      exact ⟨trivial, by rw [Nat.add_right_comm], trivial⟩
  | case3 catalog done _ progress unstable inductionHypothesis =>
      obtain ⟨sameCatalog, sameSummary, sameDiagnostics⟩ := inductionHypothesis
      rw [Nat.add_right_comm] at sameCatalog sameSummary sameDiagnostics
      simp only [repeatPasses_of_unstable (unexhausted _) unstable, Run.after,
        Notice.diagnostics_append, diagnostics_passNotices]
      exact ⟨sameCatalog, by rw [sameSummary], by rw [sameDiagnostics]⟩

/-- A limit that is not exceeded changes nothing. -/
theorem repeatPasses_limitedTo_of_le (unlimited : options.passLimit = none) (catalog : Catalog)
    (done : Nat) (enough : (catalog.repeatPasses options done).summary.passes ≤ limit) :
    catalog.repeatPasses (options.limitedTo limit) done = catalog.repeatPasses options done := by
  induction catalog, done using repeatPasses.induct options with
  | case1 catalog done exhausted =>
      rw [Options.isExhausted_of_unlimited unlimited] at exhausted
      cases exhausted
  | case2 catalog done unexhausted progress stable =>
      have least := lt_passes_repeatPasses unlimited catalog done
      have unstopped : (options.limitedTo limit).isExhausted done = false := by
        rw [Options.isExhausted_limitedTo, decide_eq_false_iff_not]
        omega
      rw [repeatPasses_of_stable (by simpa using unexhausted) stable,
        repeatPasses_of_stable unstopped stable]
      rfl
  | case3 catalog done unexhausted progress unstable inductionHypothesis =>
      have least := lt_passes_repeatPasses unlimited catalog done
      have unstopped : (options.limitedTo limit).isExhausted done = false := by
        rw [Options.isExhausted_limitedTo, decide_eq_false_iff_not]
        omega
      rw [repeatPasses_of_unstable (by simpa using unexhausted) unstable] at enough
      rw [repeatPasses_of_unstable (by simpa using unexhausted) unstable,
        repeatPasses_of_unstable unstopped unstable]
      exact congrArg (fun run => run.after progress (passNotices (done + 1) progress))
        (inductionHypothesis enough)

/-- A run that a limit stops has come to a catalog from which the unlimited run goes on. -/
theorem repeatPasses_limitedTo_of_lt (unlimited : options.passLimit = none) (catalog : Catalog)
    (done : Nat) (within : done ≤ limit)
    (beyond : limit < (catalog.repeatPasses options done).summary.passes) :
    ∃ (progress : Progress) (notices : List Notice),
      catalog.repeatPasses (options.limitedTo limit) done =
        ⟨progress.catalog, ⟨limit, progress.removed, progress.tally, false⟩,
          notices ++ [⟨.reported (.passLimit limit), none⟩]⟩ ∧
      catalog.repeatPasses options done =
        (progress.catalog.repeatPasses options limit).after progress notices := by
  -- At the limit nothing was done yet, and everything is still to come.
  have stopped : ∀ catalog : Catalog, ∃ (progress : Progress) (notices : List Notice),
      catalog.repeatPasses (options.limitedTo limit) limit =
        ⟨progress.catalog, ⟨limit, progress.removed, progress.tally, false⟩,
          notices ++ [⟨.reported (.passLimit limit), none⟩]⟩ ∧
      catalog.repeatPasses options limit =
        (progress.catalog.repeatPasses options limit).after progress notices := by
    intro catalog
    refine ⟨⟨catalog, [], .zero, []⟩, [], ?_, ?_⟩
    · exact repeatPasses_of_isExhausted catalog (by simp [Options.isExhausted_limitedTo])
    · simp [Run.after]
  induction catalog, done using repeatPasses.induct options with
  | case1 catalog done exhausted =>
      rw [Options.isExhausted_of_unlimited unlimited] at exhausted
      cases exhausted
  | case2 catalog done unexhausted progress stable =>
      rw [repeatPasses_of_stable (by simpa using unexhausted) stable] at beyond
      obtain rfl : done = limit := Nat.le_antisymm within (Nat.le_of_lt_succ beyond)
      exact stopped catalog
  | case3 catalog done unexhausted progress unstable inductionHypothesis =>
      rcases Nat.eq_or_lt_of_le within with rfl | before
      · exact stopped catalog
      · have unstopped : (options.limitedTo limit).isExhausted done = false := by
          rw [Options.isExhausted_limitedTo, decide_eq_false_iff_not]
          omega
        rw [repeatPasses_of_unstable (by simpa using unexhausted) unstable] at beyond
        obtain ⟨later, notices, limited, whole⟩ := inductionHypothesis before beyond
        refine ⟨progress.andThen later, passNotices (done + 1) progress ++ notices, ?_, ?_⟩
        · have first := repeatPasses_of_unstable unstopped unstable
          rw [first]
          change ((progress.catalog.repeatPasses (options.limitedTo limit) (done + 1)).after
            progress (passNotices (done + 1) progress)) = _
          rw [limited]
          simp [Run.after, Progress.andThen]
        · rw [repeatPasses_of_unstable (by simpa using unexhausted) unstable]
          exact (congrArg (fun run => run.after progress (passNotices (done + 1) progress))
            whole).trans (Run.after_after _ _ _ _ _)

/-! ### Stopped and resumed resolutions -/

theorem prepare_limitedTo (catalog : Catalog) (options : Options) (limit : Nat) :
    catalog.prepare (options.limitedTo limit) = catalog.prepare options := rfl

/-- A run that needs no preparation is a repetition of passes. -/
theorem resolve_of_prepared (prepared : catalog.prepare options = (catalog, [])) :
    (catalog.resolve options).catalog = (catalog.repeatPasses options 0).catalog ∧
      (catalog.resolve options).summary = (catalog.repeatPasses options 0).summary := by
  rw [catalog_resolve, summary_resolve, prepared]
  exact ⟨rfl, rfl⟩

/-- A whole run is split where a limit stopped it. The stopped run has made as many passes as the
limit allows and warns of it after the diagnostics so far; the resumed run makes the other passes
and comes to the catalog of the whole run, and removals and counts of the two add up. -/
structure IsSplit (whole stopped resumed : Run) (limit : Nat) : Prop where
  stoppedPasses : stopped.summary.passes = limit
  unconverged : stopped.summary.converged = false
  stoppedRemoved : stopped.summary.removed <+: whole.summary.removed
  stoppedDiagnostics : ∃ shared, shared <+: Notice.diagnostics whole.notices ∧
    Notice.diagnostics stopped.notices =
      shared ++ [⟨.warning, "<api>",
        "stopped after " ++ toString limit ++ " passes without reaching a fixed point"⟩]
  resumedPasses : resumed.summary.passes = whole.summary.passes - limit
  catalog : resumed.catalog = whole.catalog
  removed : stopped.summary.removed ++ resumed.summary.removed = whole.summary.removed
  tally : stopped.summary.tally + resumed.summary.tally = whole.summary.tally

/-- After any history, a limit of passes that is enough leaves the resolution as it is, and a
smaller one splits it. -/
theorem resolve_limitedTo {commands : List Command} {options : Options}
    (unlimited : options.passLimit = none) (limit : Nat) :
    let catalog := Catalog.empty.performAll commands
    let whole := catalog.resolve options
    let stopped := catalog.resolve (options.limitedTo limit)
    (whole.summary.passes ≤ limit → stopped = whole) ∧
      (limit < whole.summary.passes →
        IsSplit whole stopped (stopped.catalog.resolve options) limit) := by
  intro catalog whole stopped
  have separated : catalog.IsSeparated := performAll_isSeparated commands
  constructor
  · intro enough
    have same := repeatPasses_limitedTo_of_le unlimited (catalog.prepare options).1 0 enough
    simp only [stopped, whole, resolve, prepare_limitedTo, same]
  · intro beyond
    obtain ⟨progress, notices, sameStopped, sameWhole⟩ :=
      repeatPasses_limitedTo_of_lt unlimited (catalog.prepare options).1 0 limit.zero_le beyond
    have stoppedCatalog : stopped.catalog = progress.catalog := by
      simp only [stopped, catalog_resolve, prepare_limitedTo, sameStopped]
    have stoppedSummary :
        stopped.summary = ⟨limit, progress.removed, progress.tally, false⟩ := by
      simp only [stopped, summary_resolve, prepare_limitedTo, sameStopped]
    obtain ⟨resumedCatalog, resumedSummary⟩ :
        (stopped.catalog.resolve options).catalog =
            (progress.catalog.repeatPasses options 0).catalog ∧
          (stopped.catalog.resolve options).summary =
            (progress.catalog.repeatPasses options 0).summary := by
      rw [← stoppedCatalog]
      exact resolve_of_prepared (separated.prepare_resolve rfl)
    have wholeCatalog : whole.catalog = (progress.catalog.repeatPasses options limit).catalog := by
      simp only [whole, catalog_resolve, sameWhole, Run.after]
    have wholeSummary : whole.summary =
        ((progress.catalog.repeatPasses options limit).after progress notices).summary := by
      simp only [whole, summary_resolve, sameWhole]
    -- The resumed run counts its passes from zero, and the whole run counts them from the limit.
    obtain ⟨shiftedCatalog, shiftedSummary, -⟩ :=
      repeatPasses_add unlimited progress.catalog 0 limit
    rw [Nat.zero_add] at shiftedCatalog shiftedSummary
    have removed : stopped.summary.removed ++ (stopped.catalog.resolve options).summary.removed =
        whole.summary.removed := by
      rw [stoppedSummary, resumedSummary, wholeSummary, Run.after, shiftedSummary]
    constructor
    case stoppedPasses => rw [stoppedSummary]
    case unconverged => rw [stoppedSummary]
    case stoppedRemoved => exact ⟨_, removed⟩
    case removed => exact removed
    case catalog => rw [resumedCatalog, wholeCatalog, shiftedCatalog]
    case tally => rw [stoppedSummary, resumedSummary, wholeSummary, Run.after, shiftedSummary]
    case resumedPasses =>
      rw [resumedSummary, wholeSummary, Run.after, shiftedSummary]
      exact (Nat.add_sub_cancel _ _).symm
    case stoppedDiagnostics =>
      refine ⟨Notice.diagnostics (catalog.prepare options).2 ++ Notice.diagnostics notices, ?_, ?_⟩
      · rw [diagnostics_resolve, sameWhole, Run.after, Notice.diagnostics_append,
          ← List.append_assoc]
        exact List.prefix_append _ _
      · rw [diagnostics_resolve, prepare_limitedTo, sameStopped, Notice.diagnostics_append,
          List.append_assoc]
        rfl

/-- In this history each of three classes extends the next one, and the last one extends a name
that nothing declares, so every pass removes one class. -/
def cascading : List Command :=
  [.addPackage "p", .declare "p" ((Declaration.newClass "A").withSupertype "p.B"),
    .declare "p" ((Declaration.newClass "B").withSupertype "p.C"),
    .declare "p" ((Declaration.newClass "C").withSupertype "p.D")]

/-- The cascade takes more than two passes, so a limit of two splits the run. -/
theorem resolve_limitedTo_cascading :
    let catalog := Catalog.empty.performAll cascading
    let whole := catalog.resolve .standard
    let stopped := catalog.resolve (Options.standard.limitedTo 2)
    Options.standard.passLimit = none ∧ 2 < whole.summary.passes ∧
      IsSplit whole stopped (stopped.catalog.resolve .standard) 2 := by
  have unlimited : Options.standard.passLimit = none := rfl
  have beyond :
      2 < ((Catalog.empty.performAll cascading).resolve .standard).summary.passes := by
    decide +kernel
  have split := @resolve_limitedTo cascading .standard unlimited 2
  exact ⟨unlimited, beyond, split.2 beyond⟩

end Catalog

end TypeGraph
