import CoverageMatrix.Coverage.Form
import CoverageMatrix.Job.Form
import CoverageMatrix.Job.Result

/-!
The document forms of events, phase records and job results.
-/
namespace CoverageMatrix

open Decode (Dialect Result)

namespace Event

def toData (e : Event) : Data :=
  .table [("seq", .int e.seq), ("kind", .text e.kind), ("payload", e.payload),
    ("timestamp", .text e.timestamp)]

def decode (dialect : Dialect) (x : Fragment) : Result Event := do
  let seq := Decode.natural "u64"
  let r ← Decode.record dialect "struct JobEvent" .ignored
    [.of "seq" seq, .of "kind" Decode.text, .of "payload" Decode.any, .of "timestamp" Decode.text] x
  return {
    seq := ← r.get "seq" seq
    kind := ← r.get "kind" Decode.text
    payload := ← r.get "payload" Decode.any
    timestamp := ← r.get "timestamp" Decode.text }

end Event

namespace PhaseRecord

def toData (p : PhaseRecord) : Data :=
  .table ([("kind", .text p.kind.name), ("status", .text p.status.name)]
    ++ Data.entryIf "result_code" .int p.resultCode ++ Data.entryIf "detail" .text p.detail
    ++ [("duration_ms", .int p.durationMs)])

def decode (dialect : Dialect) (x : Fragment) : Result PhaseRecord := do
  let kind := Decode.variant dialect PhaseKind.byName
  let status := Decode.variant dialect PhaseStatus.byName
  let code := Decode.optional Decode.code
  let detail := Decode.optional Decode.text
  let duration := Decode.natural "u64"
  let r ← Decode.record dialect "struct PhaseRecord" .ignored
    [.of "kind" kind, .of "status" status, .of "result_code" code, .of "detail" detail,
     .of "duration_ms" duration] x
  return {
    kind := ← r.get "kind" kind
    status := ← r.get "status" status
    resultCode := ← r.getD "result_code" code none
    detail := ← r.getD "detail" detail none
    durationMs := ← r.get "duration_ms" duration }

end PhaseRecord

namespace JobResult

def toData (r : JobResult) : Data :=
  .table [("job", r.job.toData), ("run_id", .text r.runId), ("success", .bool r.success),
    ("exit_code", .int r.exitCode),
    ("aborted_at", .nullable (fun k => .text k.name) r.abortedAt),
    ("failure", .nullable .text r.failure), ("report_error", .nullable .text r.reportError),
    ("export_error", .nullable .text r.exportError),
    ("states", .list (r.states.map fun s => .text s.name)),
    ("phases", .list (r.phases.map PhaseRecord.toData)),
    ("events", .list (r.events.map Event.toData)),
    ("coverage", .nullable CoverageDataset.toData r.coverage),
    ("report_path", .nullable Path.toData r.reportPath), ("started_at", .text r.startedAt),
    ("duration_ms", .int r.durationMs)]

def decode (dialect : Dialect) (x : Fragment) : Result JobResult := do
  let job := Job.decode dialect
  let kind := Decode.optional (Decode.variant dialect PhaseKind.byName)
  let reason := Decode.optional Decode.text
  let states := Decode.listOf (Decode.variant dialect JobState.byName)
  let phases := Decode.listOf (PhaseRecord.decode dialect)
  let events := Decode.listOf (Event.decode dialect)
  let coverage := Decode.optional (CoverageDataset.decode dialect)
  let path := Decode.optional Path.decode
  let duration := Decode.natural "u64"
  let r ← Decode.record dialect "struct JobResult" .ignored
    [.of "job" job, .of "run_id" Decode.text, .of "success" Decode.bool,
     .of "exit_code" Decode.code, .of "aborted_at" kind, .of "failure" reason,
     .of "report_error" reason, .of "export_error" reason, .of "states" states,
     .of "phases" phases, .of "events" events, .of "coverage" coverage, .of "report_path" path,
     .of "started_at" Decode.text, .of "duration_ms" duration] x
  return {
    job := ← r.get "job" job
    runId := ← r.get "run_id" Decode.text
    success := ← r.get "success" Decode.bool
    exitCode := ← r.get "exit_code" Decode.code
    abortedAt := ← r.getD "aborted_at" kind none
    failure := ← r.getD "failure" reason none
    reportError := ← r.getD "report_error" reason none
    exportError := ← r.getD "export_error" reason none
    states := ← r.get "states" states
    phases := ← r.get "phases" phases
    events := ← r.get "events" events
    coverage := ← r.getD "coverage" coverage none
    reportPath := ← r.getD "report_path" path none
    startedAt := ← r.get "started_at" Decode.text
    durationMs := ← r.get "duration_ms" duration }

end JobResult
end CoverageMatrix
