import CoverageMatrix.Invocation.Form
import CoverageMatrix.Job.ResultForm
import CoverageMatrix.Proofs.Config.Json

/-!
# The document forms of a job

The forms of a job, of its commands and coverage data and of its result are read as what they are
forms of, if the numbers in them are those of their types.
-/
namespace CoverageMatrix

open Decode (Dialect Fits Holds Reads record_ofData)
open Fragment (ofData)

/-! ## Parts -/

theorem Decode.optional_nullable {α : Type} {value : Fragment → Decode.Result α} {form : α → Data}
    {o : Option α} (there : ∀ a ∈ o, form a ≠ .null)
    (read : ∀ a ∈ o, value (ofData (form a)) = .ok a) :
    Decode.optional value (ofData (Data.nullable form o)) = .ok o := by
  cases o with
  | none => rfl
  | some a => exact Decode.optional_ofData (read a rfl) (there a rfl)

@[simp] theorem Data.isExact_nullable {α : Type} {depth : Nat} {form : α → Data} {o : Option α} :
    (Data.nullable form o).IsExact depth ↔ ∀ a ∈ o, (form a).IsExact depth := by
  cases o <;> simp [Data.nullable]

/-! ## Names -/

theorem PhaseKind.variant_name (dialect : Dialect) (k : PhaseKind) :
    Decode.variant dialect byName (ofData (.text k.name)) = .ok k := by
  cases k <;> exact Decode.variant_ofData dialect rfl

theorem PhaseStatus.variant_name (dialect : Dialect) (s : PhaseStatus) :
    Decode.variant dialect byName (ofData (.text s.name)) = .ok s := by
  cases s <;> exact Decode.variant_ofData dialect rfl

theorem JobState.variant_name (dialect : Dialect) (s : JobState) :
    Decode.variant dialect byName (ofData (.text s.name)) = .ok s := by
  cases s <;> exact Decode.variant_ofData dialect rfl

/-! ## Jobs -/

namespace Job

/-- The place of a job in its matrix is a number of 64 bits. -/
def InRange (j : Job) : Prop :=
  (j.number : Int) ≤ Data.maxUInt64

variable {j : Job}

theorem isExact_toData (h : j.InRange) : j.toData.IsExact 2 := by
  have number := Data.isExact_natural h 1
  simp_all [toData, JobId.toData]

theorem decode_toData (dialect : Dialect) (h : j.InRange) :
    decode dialect (ofData j.toData) = .ok j := by
  have id : Holds j.toData.entries "id" JobId.decode j.id := ⟨_, rfl, rfl⟩
  have number : Holds j.toData.entries "number" (Decode.natural "usize") j.number :=
    ⟨_, rfl, Decode.natural_ofData h "usize"⟩
  have interpreter : Holds j.toData.entries "interpreter" Decode.text j.interpreter := ⟨_, rfl, rfl⟩
  have version : Holds j.toData.entries "version" Decode.text j.version := ⟨_, rfl, rfl⟩
  have env : Holds j.toData.entries "env" EnvVars.decode j.env := ⟨_, rfl, j.env.decode_toData⟩
  have digest : Holds j.toData.entries "digest" Decode.text j.digest := ⟨_, rfl, rfl⟩
  rw [decode, show j.toData = .table j.toData.entries from rfl, record_ofData]
  · simp only [bind, Except.bind, id.get, number.get, interpreter.get, version.get, env.get,
      digest.get]
    rfl
  · refine .of_sublist (.refl ["id", "number", "interpreter", "version", "env", "digest"]) rfl
      (by decide) ?_
    simp only [List.forall_mem_cons]
    exact ⟨id.check, number.check, interpreter.check, version.check, env.check, digest.check,
      by simp⟩

end Job

/-! ## Coverage data -/

namespace CoverageDataset

def InRange (s : CoverageDataset) : Prop :=
  (s.bytes : Int) ≤ Data.maxUInt64

variable {s : CoverageDataset}

theorem isExact_toData (h : s.InRange) : s.toData.IsExact 1 := by
  have bytes := Data.isExact_natural h 0
  simp_all [toData, Path.toData]

theorem decode_toData (dialect : Dialect) (h : s.InRange) :
    decode dialect (ofData s.toData) = .ok s := by
  have path : Holds s.toData.entries "path" Path.decode s.path := ⟨_, rfl, rfl⟩
  have bytes : Holds s.toData.entries "bytes" (Decode.natural "u64") s.bytes :=
    ⟨_, rfl, Decode.natural_ofData h "u64"⟩
  have digest : Holds s.toData.entries "digest" Decode.text s.digest := ⟨_, rfl, rfl⟩
  rw [decode, show s.toData = .table s.toData.entries from rfl, record_ofData]
  · simp only [bind, Except.bind, path.get, bytes.get, digest.get]
    rfl
  · refine .of_sublist (.refl ["path", "bytes", "digest"]) rfl (by decide) ?_
    simp only [List.forall_mem_cons]
    exact ⟨path.check, bytes.check, digest.check, by simp⟩

theorem decode_nullable (dialect : Dialect) {o : Option CoverageDataset}
    (h : ∀ s ∈ o, s.InRange) :
    Decode.optional (decode dialect) (ofData (Data.nullable toData o)) = .ok o :=
  Decode.optional_nullable (fun _ _ => by simp [toData]) fun s mem => decode_toData dialect (h s mem)

end CoverageDataset

theorem Decode.optional_text (o : Option String) :
    Decode.optional Decode.text (ofData (Data.nullable .text o)) = .ok o :=
  Decode.optional_nullable (fun _ _ => by simp) fun _ _ => rfl

namespace CoverageState

def InRange (s : CoverageState) : Prop :=
  ∀ d ∈ s.dataset, d.InRange

variable {s : CoverageState}

theorem isExact_toData (h : s.InRange) : s.toData.IsExact 2 := by
  have dataset := fun d mem => (CoverageDataset.isExact_toData (h d mem))
  simp_all [toData, Path.toData]

theorem decode_toData (dialect : Dialect) (h : s.InRange) :
    decode dialect (ofData s.toData) = .ok s := by
  have dataFile : Holds s.toData.entries "data_file" Path.decode s.dataFile := ⟨_, rfl, rfl⟩
  have package : Holds s.toData.entries "package" (Decode.optional Decode.text) s.package :=
    ⟨_, rfl, Decode.optional_text s.package⟩
  have includeTests : Holds s.toData.entries "include_tests" Decode.bool s.includeTests :=
    ⟨_, rfl, rfl⟩
  have erased : Holds s.toData.entries "erased" Decode.bool s.erased := ⟨_, rfl, rfl⟩
  have dataset : Holds s.toData.entries "dataset"
      (Decode.optional (CoverageDataset.decode dialect)) s.dataset :=
    ⟨_, rfl, CoverageDataset.decode_nullable dialect h⟩
  rw [decode, show s.toData = .table s.toData.entries from rfl, record_ofData]
  · simp only [bind, Except.bind, dataFile.get, package.getD, includeTests.get, erased.get,
      dataset.getD]
    rfl
  · refine .of_sublist (.refl ["data_file", "package", "include_tests", "erased", "dataset"]) rfl
      (by decide) ?_
    simp only [List.forall_mem_cons]
    exact ⟨dataFile.check, package.check, includeTests.check, erased.check, dataset.check, by simp⟩

end CoverageState

/-! ## Commands -/

namespace Invocation

def InRange (i : Invocation) : Prop :=
  (i.timeoutSecs : Int) ≤ Data.maxUInt64

variable {i : Invocation}

theorem isExact_toData (h : i.InRange) : i.toData.IsExact 2 := by
  have timeout := Data.isExact_natural h 1
  simp_all [toData, Path.toData]

theorem decode_toData (dialect : Dialect) (h : i.InRange) :
    decode dialect (ofData i.toData) = .ok i := by
  have label : Holds i.toData.entries "label" Decode.text i.label := ⟨_, rfl, rfl⟩
  have program : Holds i.toData.entries "program" Decode.text i.program := ⟨_, rfl, rfl⟩
  have args : Holds i.toData.entries "args" (Decode.listOf Decode.text) i.args :=
    ⟨_, rfl, Decode.listOf_text_texts i.args⟩
  have env : Holds i.toData.entries "env" EnvVars.decode i.env := ⟨_, rfl, i.env.decode_toData⟩
  have cwd : Holds i.toData.entries "cwd" Path.decode i.cwd := ⟨_, rfl, rfl⟩
  have timeout : Holds i.toData.entries "timeout_secs" (Decode.natural "u64") i.timeoutSecs :=
    ⟨_, rfl, Decode.natural_ofData h "u64"⟩
  rw [decode, show i.toData = .table i.toData.entries from rfl, record_ofData]
  · simp only [bind, Except.bind, label.get, program.get, args.get, env.get, cwd.get, timeout.get]
    rfl
  · refine .of_sublist (.refl ["label", "program", "args", "env", "cwd", "timeout_secs"]) rfl
      (by decide) ?_
    simp only [List.forall_mem_cons]
    exact ⟨label.check, program.check, args.check, env.check, cwd.check, timeout.check, by simp⟩

end Invocation

/-! ## Events -/

/-- How deep the payload of an event may be nested. -/
def Event.payloadDepth : Nat := 100

/-- The number of an event is one of 64 bits, and its payload is data sorted by key, without
fractions and not nested too deep. -/
structure Event.InRange (e : Event) : Prop where
  seq : (e.seq : Int) ≤ Data.maxUInt64
  sorted : e.payload.sorted = e.payload
  exact : e.payload.IsExact payloadDepth

namespace Event

variable {e : Event}

theorem isExact_toData (h : e.InRange) : e.toData.IsExact (payloadDepth + 1) := by
  have seq := Data.isExact_natural h.seq payloadDepth
  have payload := h.exact
  simp_all [toData]

theorem decode_toData (dialect : Dialect) (h : e.InRange) :
    decode dialect (ofData e.toData) = .ok e := by
  have seq : Holds e.toData.entries "seq" (Decode.natural "u64") e.seq :=
    ⟨_, rfl, Decode.natural_ofData h.seq "u64"⟩
  have kind : Holds e.toData.entries "kind" Decode.text e.kind := ⟨_, rfl, rfl⟩
  have payload : Holds e.toData.entries "payload" Decode.any e.payload :=
    ⟨_, rfl, Decode.any_ofData h.sorted⟩
  have timestamp : Holds e.toData.entries "timestamp" Decode.text e.timestamp := ⟨_, rfl, rfl⟩
  rw [decode, show e.toData = .table e.toData.entries from rfl, record_ofData]
  · simp only [bind, Except.bind, seq.get, kind.get, payload.get, timestamp.get]
    rfl
  · refine .of_sublist (.refl ["seq", "kind", "payload", "timestamp"]) rfl (by decide) ?_
    simp only [List.forall_mem_cons]
    exact ⟨seq.check, kind.check, payload.check, timestamp.check, by simp⟩

end Event

/-! ## Phases -/

/-- The exit codes of processes are numbers of 32 bits. -/
def IsExitCode (n : Int) : Prop :=
  -2147483648 ≤ n ∧ n ≤ 2147483647

theorem IsExitCode.isExact {n : Int} (h : IsExitCode n) (depth : Nat) :
    Data.IsExact depth (.int n) :=
  .int (Int.le_trans (by decide) h.1) (Int.le_trans h.2 (by decide))

structure PhaseRecord.InRange (p : PhaseRecord) : Prop where
  resultCode : ∀ n ∈ p.resultCode, IsExitCode n
  durationMs : (p.durationMs : Int) ≤ Data.maxUInt64

namespace PhaseRecord

variable {p : PhaseRecord}

theorem keys_entries : (p.toData.entries.map (·.1)).Sublist
    ["kind", "status", "result_code", "detail", "duration_ms"] := by
  simp only [toData, Data.entries, List.map_append]
  exact (((List.Sublist.refl _).append (Data.keys_entryIf ..)).append
    (Data.keys_entryIf ..)).append (.refl _)

theorem isExact_toData (h : p.InRange) : p.toData.IsExact 1 := by
  have code := fun n mem => (h.resultCode n mem).isExact 0
  have duration := Data.isExact_natural h.durationMs 0
  simp only [toData, Data.isExact_table, List.forall_mem_append, List.forall_mem_cons,
    Data.isExact_entryIf]
  simp_all

theorem decode_toData (dialect : Dialect) (h : p.InRange) :
    decode dialect (ofData p.toData) = .ok p := by
  have kind : Holds p.toData.entries "kind" (Decode.variant dialect PhaseKind.byName) p.kind :=
    ⟨_, rfl, p.kind.variant_name dialect⟩
  have status : Holds p.toData.entries "status" (Decode.variant dialect PhaseStatus.byName)
      p.status :=
    ⟨_, rfl, p.status.variant_name dialect⟩
  have code : Reads p.toData.entries "result_code" (Decode.optional Decode.code) none
      p.resultCode :=
    .of_option_of_mem (by simp [toData, Data.entries, List.lookup_append, List.lookup_cons])
      (by simp) fun n mem => Decode.code_ofData (h.resultCode n mem).1 (h.resultCode n mem).2
  have detail : Reads p.toData.entries "detail" (Decode.optional Decode.text) none p.detail :=
    .of_option (by simp [toData, Data.entries, List.lookup_append, List.lookup_cons]) (by simp)
      Decode.text_ofData
  have duration : Holds p.toData.entries "duration_ms" (Decode.natural "u64") p.durationMs :=
    ⟨_, by simp [toData, Data.entries, List.lookup_append, List.lookup_cons],
      Decode.natural_ofData h.durationMs "u64"⟩
  rw [decode, show p.toData = .table p.toData.entries from rfl, record_ofData]
  · simp only [bind, Except.bind, kind.get, status.get, code.getD, detail.getD, duration.get]
    rfl
  · refine .of_sublist p.keys_entries rfl (by decide) ?_
    simp only [List.forall_mem_cons]
    exact ⟨kind.check, status.check, fun _ => code.check, fun _ => detail.check, duration.check,
      by simp⟩

end PhaseRecord

/-! ## Results -/

/-- The numbers of a result are those of their types, and its events have payloads that can be
written down. -/
structure JobResult.InRange (r : JobResult) : Prop where
  job : r.job.InRange
  exitCode : IsExitCode r.exitCode
  phases : ∀ p ∈ r.phases, p.InRange
  events : ∀ e ∈ r.events, e.InRange
  coverage : ∀ s ∈ r.coverage, s.InRange
  durationMs : (r.durationMs : Int) ≤ Data.maxUInt64

namespace JobResult

variable {r : JobResult}

theorem isExact_toData (h : r.InRange) : r.toData.IsExact (Event.payloadDepth + 3) := by
  have job := (Job.isExact_toData h.job).mono (n := Event.payloadDepth + 2) (by decide)
  have code := h.exitCode.isExact (Event.payloadDepth + 2)
  have phases := fun p mem =>
    (PhaseRecord.isExact_toData (h.phases p mem)).mono (n := Event.payloadDepth + 1) (by decide)
  have events := fun e mem => Event.isExact_toData (h.events e mem)
  have coverage := fun s mem =>
    (CoverageDataset.isExact_toData (h.coverage s mem)).mono (n := Event.payloadDepth + 2) (by decide)
  have duration := Data.isExact_natural h.durationMs (Event.payloadDepth + 2)
  simp_all [toData, Path.toData]

theorem decode_toData (dialect : Dialect) (h : r.InRange) :
    decode dialect (ofData r.toData) = .ok r := by
  have job : Holds r.toData.entries "job" (Job.decode dialect) r.job :=
    ⟨_, rfl, r.job.decode_toData dialect h.job⟩
  have runId : Holds r.toData.entries "run_id" Decode.text r.runId := ⟨_, rfl, rfl⟩
  have success : Holds r.toData.entries "success" Decode.bool r.success := ⟨_, rfl, rfl⟩
  have exitCode : Holds r.toData.entries "exit_code" Decode.code r.exitCode :=
    ⟨_, rfl, Decode.code_ofData h.exitCode.1 h.exitCode.2⟩
  have abortedAt : Holds r.toData.entries "aborted_at"
      (Decode.optional (Decode.variant dialect PhaseKind.byName)) r.abortedAt :=
    ⟨_, rfl, Decode.optional_nullable (fun _ _ => by simp) fun k _ => k.variant_name dialect⟩
  have failure : Holds r.toData.entries "failure" (Decode.optional Decode.text) r.failure :=
    ⟨_, rfl, Decode.optional_text _⟩
  have reportError : Holds r.toData.entries "report_error" (Decode.optional Decode.text)
      r.reportError := ⟨_, rfl, Decode.optional_text _⟩
  have exportError : Holds r.toData.entries "export_error" (Decode.optional Decode.text)
      r.exportError := ⟨_, rfl, Decode.optional_text _⟩
  have states : Holds r.toData.entries "states"
      (Decode.listOf (Decode.variant dialect JobState.byName)) r.states :=
    ⟨_, rfl, Decode.listOf_ofData fun s _ => s.variant_name dialect⟩
  have phases : Holds r.toData.entries "phases" (Decode.listOf (PhaseRecord.decode dialect))
      r.phases :=
    ⟨_, rfl, Decode.listOf_ofData fun p mem => p.decode_toData dialect (h.phases p mem)⟩
  have events : Holds r.toData.entries "events" (Decode.listOf (Event.decode dialect)) r.events :=
    ⟨_, rfl, Decode.listOf_ofData fun e mem => e.decode_toData dialect (h.events e mem)⟩
  have coverage : Holds r.toData.entries "coverage"
      (Decode.optional (CoverageDataset.decode dialect)) r.coverage :=
    ⟨_, rfl, CoverageDataset.decode_nullable dialect h.coverage⟩
  have reportPath : Holds r.toData.entries "report_path" (Decode.optional Path.decode)
      r.reportPath :=
    ⟨_, rfl, Decode.optional_nullable (fun _ _ => by simp [Path.toData]) fun _ _ => rfl⟩
  have startedAt : Holds r.toData.entries "started_at" Decode.text r.startedAt := ⟨_, rfl, rfl⟩
  have durationMs : Holds r.toData.entries "duration_ms" (Decode.natural "u64") r.durationMs :=
    ⟨_, rfl, Decode.natural_ofData h.durationMs "u64"⟩
  rw [decode, show r.toData = .table r.toData.entries from rfl, record_ofData]
  · simp only [bind, Except.bind, job.get, runId.get, success.get, exitCode.get, abortedAt.getD,
      failure.getD, reportError.getD, exportError.getD, states.get, phases.get, events.get,
      coverage.getD, reportPath.getD, startedAt.get, durationMs.get]
    rfl
  · refine .of_sublist (.refl ["job", "run_id", "success", "exit_code", "aborted_at", "failure",
      "report_error", "export_error", "states", "phases", "events", "coverage", "report_path",
      "started_at", "duration_ms"]) rfl (by decide) ?_
    simp only [List.forall_mem_cons]
    exact ⟨job.check, runId.check, success.check, exitCode.check, abortedAt.check, failure.check,
      reportError.check, exportError.check, states.check, phases.check, events.check,
      coverage.check, reportPath.check, startedAt.check, durationMs.check, by simp⟩

end JobResult
end CoverageMatrix
