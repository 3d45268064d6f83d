import CoverageMatrix.Job.Pipeline
import CoverageMatrix.Matrix.Expand
import CoverageMatrix.Matrix.Result
import CoverageMatrix.Program.World

/-!
Running a matrix. Its jobs share the world and nothing else; a job that breaks down leaves the
others alone, and after all jobs have ended its session is closed for it, unless it had begun to
close it itself. To break down is to panic in a build that unwinds, where a panic ends the task of
its job only; in a build that aborts instead, as a release is, it ends the whole process.

Clocks are not modelled: all durations are 0, and what a panic said stands as `<panic>` in the
reason of its job.
-/
namespace CoverageMatrix

/-- What a matrix is run with. -/
structure MatrixRunner where
  config : Config
  pipeline : JobPipeline
  reporterId : ReporterId
  reporter : Reporter

/-- The largest number of jobs that can be allowed to run at a time. -/
def permitLimit : Nat := 2305843009213693951

/-- What is known of a job after all have ended: its result, unless it broke down. -/
abbrev JobEnding := Job × Option JobResult

namespace MatrixRunner

def standard (c : Config) (id : ReporterId) (reporter : Reporter) : MatrixRunner :=
  ⟨c, .standard c, id, reporter⟩

def contextFor (m : MatrixRunner) (cwd : Path) (job : Job) : JobContext :=
  .start m.config job m.reporterId m.reporter cwd

/-- What every job would do: its context, and its steps phase by phase. -/
def plan (m : MatrixRunner) (cwd : Path) :
    Except PipelineError (List (JobContext × List (PhaseKind × List String))) :=
  m.config.expand.map fun jobs => jobs.map fun job =>
    let ctx := m.contextFor cwd job
    (ctx, m.pipeline.plan ctx)

/-- What a job does. The stamp of a job is that of its number. -/
def program (m : MatrixRunner) (cwd : Path) (stamps : Nat → Stamp) (job : Job) :
    Program JobResult :=
  m.pipeline.run (m.contextFor cwd job) (stamps job.number)

def runJobs (m : MatrixRunner) (host : Host) (stamps : Nat → Stamp) :
    List Job → World → List JobEnding × World
  | [], w => ([], w)
  | job :: rest, w =>
    let (r, w) := (m.program host.cwd.path stamps job).run host w
    let (more, w) := m.runJobs host stamps rest w
    ((job, r) :: more, w)

/-- Why a job has no result of its own. What the panic said is left out of it. -/
def crashReason : String := "job task failed: <panic>"

/-- The result of a job that broke down, once its session is closed. The panic is taken to unwind,
so that joining the job's task gives an error; a panic in here unwinds the whole run. -/
def recover (m : MatrixRunner) (host : Host) (stamps : Nat → Stamp) (job : Job) (w : World) :
    Option JobResult × World :=
  let result := JobResult.crashed job crashReason (stamps job.number)
  if w.hasBegunClosing job.id then (some result, w)
  else
    let scope := (m.contextFor host.cwd.path job).scope
    match (m.reporter.closeSession m.reporterId scope setupFailureCode).run host w with
    | (some (.ok ()), w) => (some result, w)
    | (some (.error e), w) => (some { result with reportError := some (closingFailure e) }, w)
    | (none, w) => (none, w)

/-- The results of jobs that have all ended; none if a session could not even be closed. -/
def settle (m : MatrixRunner) (host : Host) (stamps : Nat → Stamp) :
    List JobEnding → World → Option (List JobResult) × World
  | [], w => (some [], w)
  | (job, ending) :: rest, w =>
    let (r, w) := match ending with
      | some r => (some r, w)
      | none => m.recover host stamps job w
    match r with
    | none => (none, w)
    | some r =>
      let (more, w) := m.settle host stamps rest w
      (more.map (r :: ·), w)

/-- The result of a matrix from those of its jobs; its duration is not measured. -/
def resultOf (m : MatrixRunner) (stamps : Nat → Stamp) (jobs : List JobResult) : MatrixResult where
  buildId := (stamps 0).runId
  configDigest := m.config.digest
  jobs := jobs
  startedAt := (stamps 0).time
  durationMs := 0

/-- Runs a matrix: its result, or why it could not begin; nothing if the run broke down. A closing
step that an earlier run began does not count. -/
def run (m : MatrixRunner) (host : Host) (stamps : Nat → Stamp) (w : World) :
    Option (Except PipelineError MatrixResult) × World :=
  match m.config.expand with
  | .error e => (some (.error e), w)
  | .ok jobs =>
    if permitLimit < m.config.matrix.parallelism then (none, w)
    else
      let (endings, w) := m.runJobs host stamps jobs w.renewed
      let (results, w) := m.settle host stamps endings w
      (results.map fun rs => .ok (m.resultOf stamps rs), w)

end MatrixRunner
end CoverageMatrix
