import CoverageMatrix.Coverage.Flags
import CoverageMatrix.Phase.Basic

/-!
The phase that runs the tests with coverage switched on. The coverage data of an earlier run is
erased first: no run may see data that is not its own.
-/
namespace CoverageMatrix

/-- The code of tests that could not be run at all. -/
def testExecutionErrorCode : Int := -1

def Config.Tests.template (c : Config.Tests) : CommandTemplate :=
  c.command ++ c.flags.args c.package c.includeTests

def Phase.testRun (c : Config.Tests) : Phase where
  kind := .testRun
  describe ctx :=
    ["erase " ++ ctx.findings.coverage.dataFile.text,
     String.intercalate " " (ctx.job.render c.template)]
  run ctx := do
    let findings := ctx.findings
    match ← findings.coverage.erase with
    | (.error e, coverage) =>
      pure (.failed ("coverage erase failed: " ++ e.message),
        { findings with coverage := coverage })
    | (.ok (), coverage) =>
      match ctx.invocation "test suite" c.template with
      | .error e => pure (.failed e.message, { findings with coverage := coverage })
      | .ok i =>
        let reply ← Program.command (i.withTimeout c.timeoutSecs)
        let code := match reply with
          | .ok output => output.exitCode
          | .error _ => testExecutionErrorCode
        let (_, coverage) ← coverage.collect
        pure (.completed code, { findings with coverage := coverage })

end CoverageMatrix
