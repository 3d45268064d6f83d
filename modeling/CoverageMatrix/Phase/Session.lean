import CoverageMatrix.Phase.Basic

/-!
The phases that open and close a job's reporting session. Closing is noted as begun before the
reporter is called, so that a job that breaks down in it is not closed a second time.
-/
namespace CoverageMatrix

/-- Why a session could not be closed, as a job records it. -/
def closingFailure (e : PipelineError) : String :=
  "after-build failed: " ++ e.message

def Phase.openSession : Phase where
  kind := .openSession
  describe ctx := [ctx.reporter.name ++ " reporter: before-build"]
  run ctx := do
    match ← ctx.reporter.openSession ctx.reporterId ctx.scope with
    | .ok () => pure (.passed, ctx.findings)
    | .error e => pure (.failed ("before-build failed: " ++ e.message), ctx.findings)

def Phase.closeSession : Phase where
  kind := .closeSession
  describe ctx := [ctx.reporter.name ++ " reporter: after-build --exit-code <test result>"]
  run ctx := do
    Program.note (.closing ctx.job.id)
    match ← ctx.reporter.closeSession ctx.reporterId ctx.scope ctx.closingCode with
    | .ok () => pure (.passed, ctx.findings)
    | .error e => pure (.failed (closingFailure e), ctx.findings)

end CoverageMatrix
