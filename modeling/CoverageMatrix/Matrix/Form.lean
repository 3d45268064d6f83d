import CoverageMatrix.Job.ResultForm
import CoverageMatrix.Matrix.Gate
import CoverageMatrix.Matrix.Result

/-!
The document forms of the verdict on a matrix and of its result.
-/
namespace CoverageMatrix

open Decode (Dialect Result)

namespace GateVerdict

def toData (v : GateVerdict) : Data :=
  .table [("passed", .bool v.passed), ("violations", .texts v.violations),
    ("warnings", .texts v.warnings), ("message", .text v.message)]

def decode (dialect : Dialect) (x : Fragment) : Result GateVerdict := do
  let messages := Decode.listOf Decode.text
  let r ← Decode.record dialect "struct GateVerdict" .ignored
    [.of "passed" Decode.bool, .of "violations" messages, .of "warnings" messages,
     .of "message" Decode.text] x
  return {
    passed := ← r.get "passed" Decode.bool
    violations := ← r.get "violations" messages
    warnings := ← r.get "warnings" messages
    message := ← r.get "message" Decode.text }

end GateVerdict

namespace MatrixResult

def toData (r : MatrixResult) : Data :=
  .table [("build_id", .text r.buildId), ("config_digest", .text r.configDigest),
    ("jobs", .list (r.jobs.map JobResult.toData)), ("started_at", .text r.startedAt),
    ("duration_ms", .int r.durationMs)]

def decode (dialect : Dialect) (x : Fragment) : Result MatrixResult := do
  let jobs := Decode.listOf (JobResult.decode dialect)
  let duration := Decode.natural "u64"
  let r ← Decode.record dialect "struct MatrixResult" .ignored
    [.of "build_id" Decode.text, .of "config_digest" Decode.text, .of "jobs" jobs,
     .of "started_at" Decode.text, .of "duration_ms" duration] x
  return {
    buildId := ← r.get "build_id" Decode.text
    configDigest := ← r.get "config_digest" Decode.text
    jobs := ← r.get "jobs" jobs
    startedAt := ← r.get "started_at" Decode.text
    durationMs := ← r.get "duration_ms" duration }

end MatrixResult
end CoverageMatrix
