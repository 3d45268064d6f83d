import CoverageMatrix.Job.Result
import CoverageMatrix.Phase.Export
import CoverageMatrix.Phase.Install
import CoverageMatrix.Phase.Session
import CoverageMatrix.Phase.TestRun

/-!
The pipeline of a job: its phases in order, of which exactly one closes the reporting session. A
failed setup aborts the job, the session is closed all the same, and only tests that passed are
followed by an export. A run never fails as a whole: how each phase went is part of its result.
-/
namespace CoverageMatrix

/-- The phases of a job. -/
structure JobPipeline where
  phases : List Phase
  closesOnce : (phases.filter (·.kind = .closeSession)).length = 1

/-! ## The course of a job -/

structure JobProgress where
  context : JobContext
  log : EventLog
  states : List JobState
  records : List PhaseRecord := []
  abortedAt : Option PhaseKind := none
  failure : Option String := none
  reportError : Option String := none
  exportError : Option String := none

namespace JobProgress

def start (ctx : JobContext) (stamp : Stamp) : JobProgress where
  context := ctx
  log := EventLog.empty.report (.jobStarted ctx.job.id ctx.job.version stamp.runId) stamp.time
  states := [.start]

/-- Whether phases of a kind are to be run now. -/
def admits (p : JobProgress) (kind : PhaseKind) : Bool :=
  match kind.policy with
  | .afterSetup => p.abortedAt.isNone
  | .always => true
  | .onTestsPassed => p.abortedAt.isNone && p.context.resultCode = some 0

def report (p : JobProgress) (h : Happening) (stamp : Stamp) : JobProgress :=
  { p with log := p.log.report h stamp.time }

def skip (p : JobProgress) (kind : PhaseKind) (stamp : Stamp) : JobProgress :=
  { p.report (.phaseSkipped kind) stamp with records := p.records ++ [.skipped kind] }

/-- The progress after a failure: a failed setup aborts the job, other failures are kept aside. -/
def fail (p : JobProgress) (kind : PhaseKind) (reason : String) : JobProgress :=
  match kind.policy with
  | .afterSetup =>
    { p with
      context := { p.context with aborted := true }
      abortedAt := some kind
      failure := some reason }
  | .always => { p with reportError := some reason }
  | .onTestsPassed => { p with exportError := some reason }

/-- What is told of a phase that was run; its duration is not measured, and stands as 0. -/
def happening (kind : PhaseKind) : PhaseOutcome → Happening
  | .passed => .phasePassed kind 0
  | .completed code => .testsCompleted kind code 0
  | .failed reason => .phaseFailed kind reason 0

def finish (p : JobProgress) (kind : PhaseKind) (outcome : PhaseOutcome) (stamp : Stamp) :
    JobProgress :=
  let next := match outcome with
    | .passed => { p with states := p.states ++ [kind.reached] }
    | .completed code =>
      { p with context := p.context.withResultCode code, states := p.states ++ [kind.reached] }
    | .failed reason => p.fail kind reason
  { next.report (happening kind outcome) stamp with
    records := p.records ++ [.ofOutcome kind outcome] }

/-- Runs the next phase, or passes it over. -/
def advance (stamp : Stamp) (p : JobProgress) (phase : Phase) : Program JobProgress :=
  if p.admits phase.kind then do
    let p := p.report (.phaseStarted phase.kind) stamp
    let (outcome, findings) ← phase.run p.context
    pure ({ p with context := { p.context with findings := findings } }.finish phase.kind outcome
      stamp)
  else pure (p.skip phase.kind stamp)

/-- The result of a job that has come to its end; its duration is not measured, and stands as 0. -/
def result (p : JobProgress) (stamp : Stamp) : JobResult :=
  let code :=
    if p.abortedAt.isSome then setupFailureCode else p.context.resultCode.getD setupFailureCode
  let success := p.abortedAt.isNone && code = 0
  { job := p.context.job
    runId := stamp.runId
    success := success
    exitCode := code
    abortedAt := p.abortedAt
    failure := p.failure
    reportError := p.reportError
    exportError := p.exportError
    states := p.states ++ [.finish]
    phases := p.records
    events := (p.log.report (.jobFinished success code 0) stamp.time).events
    coverage := p.context.findings.coverage.dataset
    reportPath := p.context.findings.reportPath
    startedAt := stamp.time
    durationMs := 0 }

end JobProgress

/-! ## Pipelines -/

namespace JobPipeline

def ofPhases (phases : List Phase) : Except PipelineError JobPipeline :=
  if h : (phases.filter (·.kind = .closeSession)).length = 1 then .ok ⟨phases, h⟩
  else .error (.invalidConfig (.closingPhases (phases.filter (·.kind = .closeSession)).length))

/-- The pipeline of a configuration: install, open the session, test, close it, export. -/
def standard (c : Config) : JobPipeline where
  phases :=
    [.install c.dependencies c.installers, .openSession, .testRun c.tests, .closeSession,
     .exportCoverage c.exports]
  closesOnce := rfl

def kinds (p : JobPipeline) : List PhaseKind :=
  p.phases.map (·.kind)

/-- The steps that a job would take, phase by phase. -/
def plan (p : JobPipeline) (ctx : JobContext) : List (PhaseKind × List String) :=
  p.phases.map fun phase => (phase.kind, phase.describe ctx)

def runPhases (stamp : Stamp) (p : JobProgress) : List Phase → Program JobProgress
  | [] => pure p
  | phase :: rest => do
    let p ← p.advance stamp phase
    runPhases stamp p rest

def run (p : JobPipeline) (ctx : JobContext) (stamp : Stamp) : Program JobResult := do
  let progress ← runPhases stamp (.start ctx stamp) p.phases
  pure (progress.result stamp)

end JobPipeline
end CoverageMatrix
