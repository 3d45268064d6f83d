import CoverageMatrix.CommandLine.Run
import CoverageMatrix.Proofs.Except
import CoverageMatrix.Proofs.Matrix.Plan
import CoverageMatrix.Proofs.Matrix.Restriction

/-!
# How a run exits

A run is settled on a configuration and an identifier before it does anything (`settle_eq_ok_iff`).
If it is not, it leaves everything as it was; otherwise its exit status, like the lines that it
prints, tells whether all jobs of its matrix succeeded, in whatever order they took their steps
(`exit_status_tells_verdict`).
-/
namespace CoverageMatrix.CommandLine

variable {host : Host} {stamps : Nat → Stamp} {o : RunOptions} {w w' : World} {c : Config}
  {id : ReporterId} {outcome : Outcome}

/-! ## What a run is settled on -/

/-- The configuration of a pipeline file with the versions that options ask for, if they ask for any. -/
def RunOptions.restricted (o : RunOptions) (file : Config) : Config :=
  if o.versions = [] then file
  else file.withVersions (file.matrix.versions.filter (· ∈ o.versions))

/-- A configuration with as many jobs at a time as options allow, if they say so. -/
def RunOptions.paralleled (o : RunOptions) (c : Config) : Config :=
  { c with matrix := { c.matrix with parallelism := o.parallel.getD c.matrix.parallelism } }

/-- The configuration of a pipeline file with all that options change about it. -/
def RunOptions.applied (o : RunOptions) (file : Config) : Config :=
  o.paralleled (o.restricted file)

/-- A run can begin: its pipeline file can be loaded and has the versions that are asked for, the
configuration is valid with what the options change about it, and there is an identifier if one is
needed. -/
structure Settles (host : Host) (o : RunOptions) (w : World) (c : Config) (id : ReporterId) :
    Prop where
  loaded : ∃ file, Config.load w.files host.cwd o.config = .ok file ∧
    (∀ v ∈ o.versions, v ∈ file.matrix.versions) ∧ c = o.applied file
  valid : c.validate = .ok ()
  named : resolveId o.reporterId c o.noReport = .ok id

/-- A file is loaded, restricted if versions are asked for, changed and looked over once more. -/
theorem loadConfig_eq (host : Host) (o : RunOptions) (w : World) :
    loadConfig host w o.config o.parallel o.versions =
      (Config.load w.files host.cwd o.config).mapError
        (Report.during ("Failed to load pipeline file " ++ o.config.text)) >>= fun file =>
      (if o.versions = [] then .ok file
        else (file.restrictVersions o.versions).mapError Report.ofError) >>= fun kept =>
      (o.paralleled kept).validate.mapError (Report.during "Invalid pipeline configuration") >>=
        fun _ => .ok (o.paralleled kept) := by
  obtain ⟨config, given, noReport, summary, parallel, versions⟩ := o
  unfold loadConfig RunOptions.paralleled
  dsimp only
  cases Config.load w.files host.cwd config with
  | error e => rfl
  | ok file =>
    cases versions with
    | nil => cases parallel <;> rfl
    | cons v rest => cases file.restrictVersions (v :: rest) <;> cases parallel <;> rfl

theorem loadConfig_eq_ok_iff : loadConfig host w o.config o.parallel o.versions = .ok c ↔
    (∃ file, Config.load w.files host.cwd o.config = .ok file ∧
      (∀ v ∈ o.versions, v ∈ file.matrix.versions) ∧ c = o.applied file) ∧
    c.validate = .ok () := by
  have restricted (file kept : Config) : (if o.versions = [] then .ok file
      else (file.restrictVersions o.versions).mapError Report.ofError) = .ok kept ↔
      (∀ v ∈ o.versions, v ∈ file.matrix.versions) ∧ kept = o.restricted file := by
    by_cases none : o.versions = []
    · simp [RunOptions.restricted, none, eq_comm]
    · rw [if_neg none, mapError_eq_ok_iff, Config.restrictVersions_eq_ok_iff,
        RunOptions.restricted, if_neg none]
  rw [loadConfig_eq]
  simp only [bind_eq_ok_iff, mapError_eq_ok_iff, restricted]
  constructor
  · rintro ⟨file, loaded, _, ⟨known, rfl⟩, ⟨⟩, valid, eq⟩
    cases eq
    exact ⟨⟨file, loaded, known, rfl⟩, valid⟩
  · rintro ⟨⟨file, loaded, known, rfl⟩, valid⟩
    exact ⟨file, loaded, _, ⟨known, rfl⟩, (), valid, rfl⟩

theorem settle_eq_ok_iff : settle host o w = .ok (c, id) ↔ Settles host o w c id := by
  simp only [settle, bind_eq_ok_iff, loadConfig_eq_ok_iff]
  constructor
  · rintro ⟨c', ⟨loaded, valid⟩, id', named, eq⟩
    cases eq
    exact ⟨loaded, valid, named⟩
  · rintro ⟨loaded, valid, named⟩
    exact ⟨c, ⟨loaded, valid⟩, id, named, rfl⟩

/-- What arguments ask of a run, and the configuration that it finds. -/
def asked? (host : Host) (w : World) (args : List String) : Option (RunOptions × Config) :=
  match request .empty args with
  | .ok (.run o) => (loadConfig host w o.config o.parallel o.versions).toOption.map (o, ·)
  | _ => none

theorem exists_of_asked? (host : Host) (w : World) (args : List String)
    (p : RunOptions × Config → Bool) (any : (asked? host w args).any p = true) :
    ∃ o c, request .empty args = .ok (.run o) ∧
      loadConfig host w o.config o.parallel o.versions = .ok c ∧ p (o, c) = true := by
  rw [asked?] at any
  split at any
  · next o accepted =>
    refine ⟨o, ?_⟩
    cases loaded : loadConfig host w o.config o.parallel o.versions with
    | error e =>
      rw [loaded] at any
      cases any
    | ok c =>
      rw [loaded] at any
      exact ⟨c, accepted, rfl, any⟩
  · cases any

/-! ## How a run can end -/

/-- How a run can come to its end: stopped before it has done anything, or once its matrix has come to
an end, in whatever order the jobs take their steps. It comes to nothing if its matrix does. -/
inductive RunsTo (host : Host) (stamps : Nat → Stamp) (o : RunOptions) (w : World) :
    Option Outcome → Prop
  | stopped {report : Report} (h : settle host o w = .error report) :
    RunsTo host stamps o w (some (.failed "" report w))
  | ended {c : Config} {id : ReporterId} {t : Trace} {w' : World}
    {ending : Option (Except PipelineError MatrixResult)} (h : settle host o w = .ok (c, id))
    (ends : (MatrixRunner.standard c id (chooseReporter c o.noReport host.cwd.path)).Ends host stamps
      w t ending w') :
    RunsTo host stamps o w (ending.map fun e => conclude host o c e w')

/-- Running the jobs one after the other is one of the ways in which a run can end; it exits with a
code of its own if the matrix comes to nothing. -/
theorem runsTo_run (host : Host) (stamps : Nat → Stamp) (o : RunOptions) (w : World) :
    RunsTo host stamps o w (some (run host stamps o w)) ∨
      RunsTo host stamps o w none ∧ (run host stamps o w).exitCode = breakdownCode := by
  unfold run
  cases settled : settle host o w with
  | error report => exact .inl (.stopped settled)
  | ok both =>
    obtain ⟨c, id⟩ := both
    let m := MatrixRunner.standard c id (chooseReporter c o.noReport host.cwd.path)
    have valid := Config.validate_eq_ok_iff.mp (settle_eq_ok_iff.mp settled).valid
    obtain ⟨t, ends⟩ := m.ends_run host stamps w (Nat.pos_of_ne_zero valid.slots)
    have run := RunsTo.ended settled ends
    simp only [runMatrix]
    rcases ran : m.run host stamps w with ⟨_ | ending, w'⟩
    · rw [ran] at run
      exact .inr ⟨run, rfl⟩
    · rw [ran] at run
      exact .inl run

/-! ## What is printed -/

theorem statusLine_closingLines (r : MatrixResult) (v : GateVerdict) :
    (closingLines r v)[1]? = some ("Status: " ++ verdictWord r.success) := rfl

/-- The line of the gate comes after those of the jobs. -/
theorem gateLine_closingLines (r : MatrixResult) (v : GateVerdict) :
    (closingLines r v)[r.jobs.length + 6]? = some ("Gate: " ++ verdictWord v.passed) := by
  have split : closingLines r v =
      (["Build ID: " ++ r.buildId, "Status: " ++ verdictWord r.success,
        "Duration: " ++ toString r.durationMs ++ "ms", ""] ++ r.jobs.map jobLine ++ ["",
        "Summary: " ++ toString r.passedCount ++ "/" ++ toString r.jobs.length ++ " jobs passed"]) ++
      ("Gate: " ++ verdictWord v.passed) ::
        (underHeading "Violations:" v.violations ++ underHeading "Warnings:" v.warnings) := by
    simp [closingLines]
  rw [split, List.getElem?_append_right (by simp)]
  simp

theorem verdictWord_eq_iff {ok : Bool} (heading : String) :
    heading ++ verdictWord ok = heading ++ "✓ PASSED" ↔ ok = true := by
  rw [String.append_right_inj]
  cases ok <;> decide

/-! ## How a run exits -/

/-- The summary of a matrix cannot be written where it was asked for. -/
def SummaryFails (host : Host) (o : RunOptions) (r : MatrixResult) (w : World) : Prop :=
  ∃ path, o.summary = some path ∧ ∃ fault, w.files.write host.cwd path
    (Json.indented (summaryData r (Gate.evaluate r.jobs))).toUTF8 = .error fault

theorem conclude_ok (host : Host) (o : RunOptions) (c : Config) (r : MatrixResult) (w : World) :
    (∃ last, (conclude host o c (.ok r) w).stdout =
      unlines (openingLines o.config c (chooseReporter c o.noReport host.cwd.path)) ++
        unlines (closingLines r (Gate.evaluate r.jobs)) ++ last) ∧
    (SummaryFails host o r w → (conclude host o c (.ok r) w).exitCode = 1) ∧
    (¬SummaryFails host o r w → (conclude host o c (.ok r) w).exitCode = r.exitCode) := by
  rw [SummaryFails, conclude]
  cases asked : o.summary with
  | none =>
    refine ⟨⟨_, rfl⟩, fun fails => ?_, fun _ => rfl⟩
    obtain ⟨path, eq, -⟩ := fails
    cases eq
  | some path =>
    dsimp only [writeSummary]
    cases written : w.files.write host.cwd path
      (Json.indented (summaryData r (Gate.evaluate r.jobs))).toUTF8 with
    | error fault =>
      exact ⟨⟨"", (String.append_empty ..).symm⟩, fun _ => rfl,
        fun fine => absurd ⟨path, rfl, fault, written⟩ fine⟩
    | ok files =>
      refine ⟨⟨_, rfl⟩, fun fails => ?_, fun _ => rfl⟩
      obtain ⟨other, eq, fault, failed⟩ := fails
      cases eq
      rw [written] at failed
      cases failed

/-- The gate of a matrix passes exactly if all its jobs succeeded. -/
theorem passed_iff {reporter : Reporter} {t : Trace} {r : MatrixResult}
    (ends : (MatrixRunner.standard c id reporter).Ends host stamps w t (some (.ok r)) w') :
    (Gate.evaluate r.jobs).passed = true ↔ ∀ j ∈ r.jobs, j.success = true := by
  rw [Gate.passed_evaluate_iff]
  refine forall₂_congr fun j mem => ?_
  obtain ⟨job, -, isResult⟩ := MatrixRunner.exists_isResultOf ends.results mem
  exact isResult.jobViolations_iff

/-- What a run that came to its end tells: with its exit status, unless the summary could not be
written, and with two of the lines that it printed. -/
structure Tells (host : Host) (o : RunOptions) (c : Config) (r : MatrixResult) (w : World)
    (outcome : Outcome) : Prop where
  printed : ∃ last, outcome.stdout =
    unlines (openingLines o.config c (chooseReporter c o.noReport host.cwd.path)) ++
      unlines (closingLines r (Gate.evaluate r.jobs)) ++ last
  status : (closingLines r (Gate.evaluate r.jobs))[1]? = some "Status: ✓ PASSED" ↔
    ∀ j ∈ r.jobs, j.success = true
  gate : (closingLines r (Gate.evaluate r.jobs))[r.jobs.length + 6]? = some "Gate: ✓ PASSED" ↔
    ∀ j ∈ r.jobs, j.success = true
  unwritten : SummaryFails host o r w → outcome.exitCode = 1
  zero : ¬SummaryFails host o r w → (outcome.exitCode = 0 ↔ ∀ j ∈ r.jobs, j.success = true)
  first : ¬SummaryFails host o r w → ∀ before j after, r.jobs = before ++ j :: after →
    (∀ k ∈ before, k.success = true) → j.success = false →
      outcome.exitCode = if 1 ≤ j.exitCode ∧ j.exitCode ≤ 255 then j.exitCode else 1

theorem tells_conclude {reporter : Reporter} {t : Trace} {r : MatrixResult}
    (ends : (MatrixRunner.standard c id reporter).Ends host stamps w t (some (.ok r)) w')
    (o : RunOptions) : Tells host o c r w' (conclude host o c (.ok r) w') := by
  obtain ⟨printed, unwritten, written⟩ := conclude_ok host o c r w'
  refine ⟨printed, ?_, ?_, unwritten, fun fine => ?_, fun fine before j after jobs good bad => ?_⟩
  · rw [statusLine_closingLines, Option.some_inj, ← MatrixResult.success_iff]
    exact verdictWord_eq_iff "Status: "
  · rw [gateLine_closingLines, Option.some_inj, ← passed_iff ends]
    exact verdictWord_eq_iff "Gate: "
  · rw [written fine, ← MatrixResult.success_iff]
    exact r.exitCode_spec.1.symm
  · rw [written fine]
    exact MatrixResult.exitCode_of_first jobs good bad

/-- However a run ends to which arguments and variables lead, unless it breaks down, and whatever its
commands do: if its pipeline file cannot be loaded or lacks a version that was asked for, if the
configuration is not valid with what the options change about it or if there is no identifier, then
its exit status is one, no command was run and no file changed. Otherwise its matrix has come to a
result with the jobs that the options leave. Where the summary was asked for and cannot be written the
exit status is one; else it is zero exactly if all jobs succeeded, which is so exactly if the line
of the status says so, and exactly if the line of the gate does, and otherwise it is the code of the
first job that did not succeed, or one if no process could end with it. -/
theorem exit_status_tells_verdict (host : Host) (stamps : Nat → Stamp) (env : EnvVars)
    (args : List String) (o : RunOptions) (w : World) (accepted : request env args = .ok (.run o)) :
    (RunsTo host stamps o w (some (answer host stamps env args w)) ∨
      RunsTo host stamps o w none ∧ (answer host stamps env args w).exitCode = breakdownCode) ∧
    ∀ outcome, RunsTo host stamps o w (some outcome) →
      ((¬∃ c id, Settles host o w c id) →
        outcome.exitCode = 1 ∧ outcome.world = w ∧ outcome.stdout = "") ∧
      ∀ c id, Settles host o w c id → ∃ t r w',
        (MatrixRunner.standard c id (chooseReporter c o.noReport host.cwd.path)).Ends host stamps w t
          (some (.ok r)) w' ∧
        r.jobs.map (·.job) = c.jobs ∧ Tells host o c r w' outcome := by
  have same : answer host stamps env args w = run host stamps o w := by
    rw [answer, accepted]
    rfl
  rw [same]
  refine ⟨runsTo_run host stamps o w, fun outcome runs => ?_⟩
  generalize reached : some outcome = some? at runs
  cases runs with
  | stopped h =>
    cases reached
    refine ⟨fun _ => ⟨rfl, rfl, rfl⟩, fun c id settles => ?_⟩
    rw [settle_eq_ok_iff.mpr settles] at h
    cases h
  | @ended c id t w' ending h ends =>
    obtain ⟨ending, rfl, rfl⟩ := Option.map_eq_some_iff.mp reached.symm
    refine ⟨fun unsettled => absurd ⟨c, id, settle_eq_ok_iff.mp h⟩ unsettled,
      fun c' id' settles => ?_⟩
    obtain ⟨rfl, rfl⟩ : c = c' ∧ id = id' := by
      have both := h.symm.trans (settle_eq_ok_iff.mpr settles)
      simpa using both
    cases ending with
    | error e =>
      exact absurd rfl (ends.ne_error (settle_eq_ok_iff.mp h).valid e)
    | ok r =>
      exact ⟨t, r, w', ends, MatrixRunner.map_job_results ends.results, tells_conclude ends o⟩

/-- A world with an empty pipeline file. -/
def bareWorld : World :=
  ⟨⟨[(["work"], .directory), (["covpipe.toml", "work"], .file .empty false)]⟩, []⟩

/-- Where every command ends well, a run of an empty pipeline file that does not report exits with zero,
and all its jobs have succeeded. -/
theorem exit_status_tells_verdict_bare :
    let host := MatrixRunner.brokenCopyHost "false"
    let stamps : Nat → Stamp := fun _ => ⟨"run", "now"⟩
    let args := ["run", "--no-report"]
    ∃ o c id r w', request .empty args = .ok (.run o) ∧ Settles host o bareWorld c id ∧
      (answer host stamps .empty args bareWorld).exitCode = 0 ∧
      r.jobs.map (·.job) = c.jobs ∧ (∀ j ∈ r.jobs, j.success = true) ∧
      Tells host o c r w' (answer host stamps .empty args bareWorld) := by
  intro host stamps args
  have zero : (answer host stamps .empty args bareWorld).exitCode = 0 := by
    decide +kernel
  obtain ⟨o, -, accepted, -, -⟩ :=
    exists_of_asked? host bareWorld args (fun _ => true) (by decide +kernel)
  obtain ⟨own, each⟩ := exit_status_tells_verdict host stamps .empty args o bareWorld accepted
  have runs : RunsTo host stamps o bareWorld (some (answer host stamps .empty args bareWorld)) := by
    rcases own with own | ⟨-, broken⟩
    · exact own
    · rw [zero] at broken
      cases broken
  obtain ⟨unsettled, settled⟩ := each _ runs
  obtain ⟨c, id, settles⟩ : ∃ c id, Settles host o bareWorld c id := by
    by_contra none
    have one := (unsettled none).1
    rw [zero] at one
    cases one
  obtain ⟨t, r, w', -, jobs, tells⟩ := settled c id settles
  have fine : ¬SummaryFails host o r w' := by
    intro fails
    have one := tells.unwritten fails
    rw [zero] at one
    cases one
  exact ⟨o, c, id, r, w', accepted, settles, zero, jobs, (tells.zero fine).mp zero, tells⟩

end CoverageMatrix.CommandLine
