import CoverageMatrix.Config.Basic
import CoverageMatrix.Coverage.State
import CoverageMatrix.Phase.Kind
import CoverageMatrix.Reporting.Reporter

/-!
What the phases of a job see: the job, where and under which variables its commands run, the way to
report, and what is known of its tests so far. Phases leave findings behind; the result of the tests
is set once, by the pipeline, and then is a variable of all later commands.
-/
namespace CoverageMatrix

/-- The variable that tells later commands how the tests ended. -/
def testResultVariable : String := "COVPIPE_TEST_RESULT"

/-- What the phases of a job leave behind for its result. -/
structure Findings where
  coverage : CoverageState
  reportPath : Option Path := none
deriving DecidableEq

structure JobContext where
  job : Job
  /-- Where the commands of the job run. -/
  workdir : Path
  env : EnvVars
  reporterId : ReporterId
  reporter : Reporter
  findings : Findings
  /-- How the tests ended, once they have. -/
  resultCode : Option Int := none
  /-- Whether a phase has failed whose failure ends the job. -/
  aborted : Bool := false

namespace JobContext

def dataFile (workdir : Path) (c : Config.Tests) (job : JobId) : Path :=
  workdir.join (c.coverageFile.append ("." ++ job.text))

/-- The context in which a job begins; `cwd` is the current directory. -/
def start (c : Config) (job : Job) (id : ReporterId) (reporter : Reporter) (cwd : Path) :
    JobContext :=
  let workdir := c.workdir.absolute cwd
  let file := dataFile workdir c.tests job.id
  { job := job
    workdir := workdir
    env := job.env.insert c.tests.coverageEnv file.text
    reporterId := id
    reporter := reporter
    findings :=
      { coverage :=
          { dataFile := file, package := c.tests.package, includeTests := c.tests.includeTests } } }

def invocation (ctx : JobContext) (label : String) (template : List String) :
    Except PipelineError Invocation :=
  (Invocation.ofArgv label (ctx.job.render template) ctx.workdir).map (·.withEnv ctx.env)

/-- What a reporting session of the job needs to know. -/
def scope (ctx : JobContext) : SessionScope :=
  ⟨ctx.job.id, ctx.workdir, ctx.env⟩

/-- The context once the tests have ended with a code. Only the first code counts. -/
def withResultCode (ctx : JobContext) (code : Int) : JobContext :=
  match ctx.resultCode with
  | some _ => ctx
  | none =>
    { ctx with resultCode := some code, env := ctx.env.insert testResultVariable (toString code) }

/-- The code of the job as far as it is known: that of its tests, unless it was aborted. -/
def closingCode (ctx : JobContext) : Int :=
  if ctx.aborted then setupFailureCode else ctx.resultCode.getD setupFailureCode

end JobContext
end CoverageMatrix
