import TypeGraph.Catalog.Standard
import TypeGraph.Resolution.Sweep

/-!
This file repeats passes until one removes nothing. Every other pass removes a live declaration, so
the passes come to an end.
-/

namespace TypeGraph

/-- The options choose the policy for interfaces, a limit of passes and the standard registry. -/
structure Options where
  policy : InterfacePolicy
  passLimit : Option Nat
  installsStandard : Bool
deriving DecidableEq, Repr

/-- By default interfaces are required, passes are not limited and the registry is installed. -/
def Options.standard : Options :=
  ⟨.removeDeclaration, none, true⟩

/-- A limit is reached when that many passes are done. -/
def Options.isExhausted (options : Options) (done : Nat) : Bool :=
  options.passLimit.any fun limit => decide (limit ≤ done)

/-- A summary says how many passes there were and what they removed. -/
structure Summary where
  passes : Nat
  removed : List String
  tally : Tally
  converged : Bool
deriving DecidableEq, Repr

/-- A run ends with a catalog, its summary and the notices of everything on the way. -/
structure Run where
  catalog : Catalog
  summary : Summary
  notices : List Notice

/-- A pass comes before the run that follows it. -/
def Run.after (run : Run) (progress : Progress) (notices : List Notice) : Run :=
  ⟨run.catalog,
    { run.summary with
      removed := progress.removed ++ run.summary.removed
      tally := progress.tally + run.summary.tally },
    notices ++ run.notices⟩

namespace Catalog

/-- The notices of a pass carry its number, and the last one counts its removals. -/
def passNotices (number : Nat) (progress : Progress) : List Notice :=
  (progress.events ++ [Event.passFinished number progress.removed.length]).map
    fun event => ⟨event, some number⟩

/-- Passes are repeated until one removes nothing or the limit is reached. -/
def repeatPasses (catalog : Catalog) (options : Options) (done : Nat) : Run :=
  if options.isExhausted done then
    ⟨catalog, ⟨done, [], .zero, false⟩, [⟨.reported (.passLimit done), none⟩]⟩
  else
    let progress := catalog.pass options.policy
    let notices := passNotices (done + 1) progress
    if stable : progress.removed = [] then
      ⟨progress.catalog, ⟨done + 1, [], progress.tally, true⟩, notices⟩
    else
      (progress.catalog.repeatPasses options (done + 1)).after progress notices
termination_by catalog.liveCount
decreasing_by exact liveCount_pass_lt stable

/-- The standard registry is installed when asked for and when no registry is there yet. -/
def prepare (catalog : Catalog) (options : Options) : Catalog × List Notice :=
  if options.installsStandard && !catalog.hasRegistry then
    let installation := catalog.installStandard
    match installation.refusal with
    | some refusal =>
        (installation.catalog, [⟨.reported (.installationRefused refusal), none⟩])
    | none => (installation.catalog, [⟨.installed StandardDeclaration.table.length, none⟩])
  else (catalog, [])

/-- A finished run is announced with its totals. -/
def closingNotices (run : Run) : List Notice :=
  if run.summary.converged then
    [⟨.finished run.summary.passes run.summary.removed.length run.summary.tally.removedMembers
      run.catalog.entryCount, none⟩]
  else []

/-- A resolution prepares the catalog, repeats passes and announces the result. -/
def resolve (catalog : Catalog) (options : Options) : Run :=
  let (prepared, opening) := catalog.prepare options
  let run := prepared.repeatPasses options 0
  ⟨run.catalog, run.summary, opening ++ run.notices ++ closingNotices run⟩

end Catalog

end TypeGraph
