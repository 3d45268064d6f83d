import CoverageMatrix.Phase.Basic

/-!
The phase that turns the collected coverage data into a report.
-/
namespace CoverageMatrix

def Phase.exportCoverage (c : Config.Export) : Phase where
  kind := .exportCoverage
  describe ctx := [String.intercalate " " (ctx.job.render c.command)]
  run ctx :=
    match ctx.invocation "coverage export" c.command with
    | .error e => pure (.failed e.message, ctx.findings)
    | .ok i => do
      match ← Program.command i with
      | .error e => pure (.failed ("coverage export: " ++ e.message), ctx.findings)
      | .ok output =>
        if output.passed then
          let report := ctx.workdir.join ⟨ctx.job.renderArg c.output⟩
          if ← Program.isPresent report then
            pure (.passed, { ctx.findings with reportPath := some report })
          else pure (.passed, ctx.findings)
        else
          pure (.failed ("coverage export exited with code " ++ toString output.exitCode),
            ctx.findings)

end CoverageMatrix
