import CoverageMatrix.Matrix.Form
import CoverageMatrix.Proofs.Job.Form
import CoverageMatrix.Proofs.Json.Reading

/-!
# What a summary loses

Nothing: results, verdicts and all that they are made of are read back from their JSON.
-/
namespace CoverageMatrix

open Decode (Dialect Holds record_ofData)
open Fragment (ofData)

/-! ## Forms -/

theorem GateVerdict.isExact_toData (v : GateVerdict) : v.toData.IsExact 2 := by
  simp [toData]

theorem GateVerdict.decode_toData (dialect : Dialect) (v : GateVerdict) :
    decode dialect (ofData v.toData) = .ok v := by
  have passed : Holds v.toData.entries "passed" Decode.bool v.passed := ⟨_, rfl, rfl⟩
  have violations : Holds v.toData.entries "violations" (Decode.listOf Decode.text) v.violations :=
    ⟨_, rfl, Decode.listOf_text_texts _⟩
  have warnings : Holds v.toData.entries "warnings" (Decode.listOf Decode.text) v.warnings :=
    ⟨_, rfl, Decode.listOf_text_texts _⟩
  have message : Holds v.toData.entries "message" Decode.text v.message := ⟨_, rfl, rfl⟩
  rw [decode, show v.toData = .table v.toData.entries from rfl, record_ofData]
  · simp only [bind, Except.bind, passed.get, violations.get, warnings.get, message.get]
    rfl
  · refine .of_sublist (.refl ["passed", "violations", "warnings", "message"]) rfl (by decide) ?_
    simp only [List.forall_mem_cons]
    exact ⟨passed.check, violations.check, warnings.check, message.check, by simp⟩

structure MatrixResult.InRange (r : MatrixResult) : Prop where
  jobs : ∀ j ∈ r.jobs, j.InRange
  durationMs : (r.durationMs : Int) ≤ Data.maxUInt64

namespace MatrixResult

variable {r : MatrixResult}

theorem isExact_toData (h : r.InRange) : r.toData.IsExact (Event.payloadDepth + 5) := by
  have jobs := fun j mem => JobResult.isExact_toData (h.jobs j mem)
  have duration := Data.isExact_natural h.durationMs (Event.payloadDepth + 4)
  simp_all [toData]

theorem decode_toData (dialect : Dialect) (h : r.InRange) :
    decode dialect (ofData r.toData) = .ok r := by
  have buildId : Holds r.toData.entries "build_id" Decode.text r.buildId := ⟨_, rfl, rfl⟩
  have configDigest : Holds r.toData.entries "config_digest" Decode.text r.configDigest :=
    ⟨_, rfl, rfl⟩
  have jobs : Holds r.toData.entries "jobs" (Decode.listOf (JobResult.decode dialect)) r.jobs :=
    ⟨_, rfl, Decode.listOf_ofData fun j mem => j.decode_toData dialect (h.jobs j mem)⟩
  have startedAt : Holds r.toData.entries "started_at" Decode.text r.startedAt := ⟨_, rfl, rfl⟩
  have durationMs : Holds r.toData.entries "duration_ms" (Decode.natural "u64") r.durationMs :=
    ⟨_, rfl, Decode.natural_ofData h.durationMs "u64"⟩
  rw [decode, show r.toData = .table r.toData.entries from rfl, record_ofData]
  · simp only [bind, Except.bind, buildId.get, configDigest.get, jobs.get, startedAt.get,
      durationMs.get]
    rfl
  · refine .of_sublist (.refl ["build_id", "config_digest", "jobs", "started_at", "duration_ms"])
      rfl (by decide) ?_
    simp only [List.forall_mem_cons]
    exact ⟨buildId.check, configDigest.check, jobs.check, startedAt.check, durationMs.check,
      by simp⟩

end MatrixResult

/-! ## Texts -/

/-- A value is read back from both texts of its document form. -/
def Json.RoundTrips {α : Type} (reader : Fragment → Decode.Result α) (form : α → Data) (a : α) :
    Prop :=
  decode reader (compact (form a)) = .ok a ∧ decode reader (indented (form a)) = .ok a

theorem Json.roundTrips_of_isExact {α : Type} {reader : Fragment → Decode.Result α}
    {form : α → Data} {a : α} {depth : Nat} (exact : (form a).IsExact depth)
    (shallow : depth ≤ depthLimit) (read : reader (ofData (form a)) = .ok a) :
    RoundTrips reader form a :=
  ⟨(decode_compact reader (exact.mono shallow)).trans read,
    (decode_indented reader (exact.mono shallow)).trans read⟩

/-- Results of jobs and of matrices, verdicts, configurations, commands and the state of coverage
data are read back, field for field, from the JSON that is written for them, compact or indented. -/
theorem Json.summaries_round_trip :
    (∀ r : JobResult, r.InRange → RoundTrips (JobResult.decode .json) JobResult.toData r) ∧
    (∀ r : MatrixResult, r.InRange →
      RoundTrips (MatrixResult.decode .json) MatrixResult.toData r) ∧
    (∀ v : GateVerdict, RoundTrips (GateVerdict.decode .json) GateVerdict.toData v) ∧
    (∀ c : Config, c.InRange → RoundTrips (Config.decode .json) Config.toData c) ∧
    (∀ i : Invocation, i.InRange → RoundTrips (Invocation.decode .json) Invocation.toData i) ∧
    (∀ s : CoverageState, s.InRange →
      RoundTrips (CoverageState.decode .json) CoverageState.toData s) := by
  refine ⟨fun r h => ?_, fun r h => ?_, fun v => ?_, fun c h => ?_, fun i h => ?_, fun s h => ?_⟩
  · exact roundTrips_of_isExact (JobResult.isExact_toData h) (by decide) (r.decode_toData .json h)
  · exact roundTrips_of_isExact (MatrixResult.isExact_toData h) (by decide)
      (r.decode_toData .json h)
  · exact roundTrips_of_isExact v.isExact_toData (by decide) (v.decode_toData .json)
  · exact roundTrips_of_isExact (Config.isExact_toData h) (by decide) (Config.decode_toData .json h)
  · exact roundTrips_of_isExact (Invocation.isExact_toData h) (by decide) (i.decode_toData .json h)
  · exact roundTrips_of_isExact (CoverageState.isExact_toData h) (by decide)
      (s.decode_toData .json h)

/-- A result with texts that have to be escaped, numbers at their limits and a nested payload. -/
def crowdedResult : JobResult where
  job := ⟨⟨"python-é/😀"⟩, 18446744073709551615, "python", "é/😀", .ofList [("A", "\x00")], "\"\\"⟩
  runId := "\x1b\n"
  success := false
  exitCode := -2147483648
  abortedAt := some .openSession
  failure := some ""
  reportError := none
  exportError := none
  states := [.start, .dependenciesInstalled, .finish]
  phases := [.ofOutcome .install .passed, .ofOutcome .testRun (.completed 2147483647)]
  events := [⟨1, "kind", .table [("", .list [.null, .int (-9223372036854775808)]),
    ("a", .table [("b", .text "\t")])], "now"⟩]
  coverage := some ⟨⟨"/.coverage"⟩, 4, "00"⟩
  reportPath := some ⟨"report.xml"⟩
  startedAt := "now"
  durationMs := 0

theorem Json.summaries_round_trip_crowded :
    RoundTrips (MatrixResult.decode .json) MatrixResult.toData
      ⟨"build", "", [crowdedResult], "now", 7⟩ := by
  obtain ⟨-, results, -⟩ := summaries_round_trip
  have crowded : crowdedResult.InRange := by
    refine ⟨Int.le_refl _, ⟨by decide, by decide⟩, ?_, ?_, ?_, by decide⟩
    · simp only [crowdedResult, List.forall_mem_cons]
      exact ⟨⟨by simp [PhaseRecord.ofOutcome], by decide⟩,
        ⟨by simp [PhaseRecord.ofOutcome, IsExitCode], by decide⟩, by simp⟩
    · simp only [crowdedResult, List.forall_mem_cons]
      refine ⟨⟨by decide, rfl, ?_⟩, by simp⟩
      simp [Event.payloadDepth, Data.minInt64, Data.maxUInt64]
    · simp [crowdedResult, CoverageDataset.InRange, Data.maxUInt64]
  exact results _ ⟨by simpa using crowded, by decide⟩

end CoverageMatrix
