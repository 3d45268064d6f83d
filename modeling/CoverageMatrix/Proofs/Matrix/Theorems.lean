import CoverageMatrix.Proofs.Matrix.Breakdown
import CoverageMatrix.Proofs.Matrix.Closing
import CoverageMatrix.Proofs.Matrix.Footprint
import CoverageMatrix.Proofs.Matrix.Secrecy
import CoverageMatrix.Proofs.Matrix.Verdict

/-!
# What a matrix comes to

The main results about matrices, for every schedule of their jobs. The proofs are in the modules
beside this one; here their last steps stand together.
-/
namespace CoverageMatrix.MatrixRunner

/-- Surroundings in which the command runner breaks down at every command. -/
def brokenHost : Host where
  cwd := ["work"]
  command _ w := ⟨none, w.files⟩
  service _ _ := .ok ()
  download url _ := .error (.helperFetch url "no network")

/-- A matrix of two jobs that may run side by side. -/
def twoJobs : Config :=
  { matrix := { versions := ["2.7", "3.9"], parallelism := 2 } }

/-- Surroundings in which every command ends well, but for those of one program, at which the
command runner breaks down. -/
def brokenCopyHost (program : String) : Host where
  cwd := ["work"]
  command i w := ⟨if i.program = program then none else some (.ok ⟨0, "", "", 0⟩), w.files⟩
  service _ _ := .ok ()
  download _ _ := .ok .empty

/-- A matrix makes one closing call for each of its jobs and none for anyone else, whatever the
phases before and after the closing phase do, and whatever the order in which jobs take their steps.
The code of a call is the one that the phases before the closing phase ask for. -/
theorem closes_each_session_once (m : MatrixRunner) (host : Host) (stamps : Nat → Stamp)
    (w w' : World) (t : Trace) (out : Option (Except PipelineError MatrixResult))
    (valid : m.config.validate = .ok ()) (narrow : m.config.matrix.parallelism ≤ permitLimit)
    (orderly : m.pipeline.Orderly m.reporter)
    (returns : ∀ id scope code, (m.reporter.closed id scope code).Returns host)
    (ends : m.Ends host stamps w t out w') :
    (∃ r, out = some (.ok r)) ∧
    (∀ job ∈ m.config.jobs, ∃ code,
      w'.closingCodes job.id = w.closingCodes job.id ++ [code] ∧
      ∀ c, m.pipeline.ClosesWith (m.contextFor host.cwd.path job) (t.of job.id) c ↔ c = code) ∧
    ∀ id, (∀ job ∈ m.config.jobs, job.id ≠ id) → w'.closingCodes id = w.closingCodes id := by
  obtain ⟨endings, v, concluded, rfl, rfl⟩ := ends.concluded valid narrow
  obtain ⟨rs, results⟩ := settle_isSome returns stamps endings v
  obtain ⟨others, own⟩ :=
    settle_closings orderly.closed (concluded.nodup_ids valid) (Prod.ext results rfl)
  rw [results]
  refine ⟨⟨_, rfl⟩, fun job mem => ?_, fun id foreign => ?_⟩
  · obtain ⟨r, mem⟩ := concluded.exists_ending mem
    obtain ⟨code, closesWith, codes⟩ := concluded.closings orderly mem
    refine ⟨code, ?_, fun c => ⟨fun h => h.unique closesWith, fun h => h ▸ closesWith⟩⟩
    rw [World.closingCodes_eq, own _ mem, codes]
  · have absent : ∀ e ∈ endings, e.1.id ≠ id := fun e mem =>
      foreign e.1 (concluded.jobs_eq ▸ List.mem_map_of_mem mem)
    have journal := concluded.closingsOf_journal orderly id
    rw [concluded.of_foreign foreign, Transcript.notes_nil] at journal
    rw [World.closingCodes_eq, others id absent, journal, closingsOf, closingsOf, List.filter_nil,
      List.append_nil, ← closingsOf, ← World.closingCodes_eq, World.closingCodes_renewed]

theorem closes_each_session_once_broken :
    let m := standard twoJobs ⟨"token"⟩ .noop
    let stamps : Nat → Stamp := fun _ => ⟨"run", "now"⟩
    let w : World := ⟨⟨[]⟩, []⟩
    ∃ t out w', m.Ends brokenHost stamps w t out w' ∧ (∃ r, out = some (.ok r)) ∧
      ∀ job ∈ m.config.jobs, ∃ code, w'.closingCodes job.id = [code] := by
  intro m stamps w
  have valid : twoJobs.validate = .ok () := by rfl
  obtain ⟨t, ends⟩ := m.ends_run brokenHost stamps w (by decide)
  have orderly : m.pipeline.Orderly m.reporter :=
    JobPipeline.standard_orderly twoJobs (fun _ _ => trivial) (fun _ _ _ => trivial)
  obtain ⟨result, codes, -⟩ := closes_each_session_once m brokenHost stamps w _ t _ valid (by decide)
    orderly (fun _ _ _ => trivial) ends
  refine ⟨t, _, _, ends, result, fun job mem => ?_⟩
  obtain ⟨code, h, -⟩ := codes job mem
  exact ⟨code, h⟩

/-- The gate and the result of a matrix of the standard pipeline agree, with any reporter and
whatever the command runner does: the gate passes exactly if all jobs succeeded, which is so exactly
if the exit status is zero. Each job that did not succeed has a violation that names it, no other
job has one, and the exit status is that of the first job that did not succeed, or one if no process
could end with it. With a reporter whose calls return there is a result. -/
theorem verdict_agrees (c : Config) (id : ReporterId) (reporter : Reporter) (host : Host)
    (stamps : Nat → Stamp) (w w' : World) (t : Trace)
    (out : Option (Except PipelineError MatrixResult))
    (ends : (standard c id reporter).Ends host stamps w t out w') :
    (c.validate = .ok () → c.matrix.parallelism ≤ permitLimit →
      (∀ id scope code, (reporter.closed id scope code).Returns host) → ∃ r, out = some (.ok r)) ∧
    ∀ r, out = some (.ok r) →
      r.jobs.map (·.job) = c.jobs ∧
      ((Gate.evaluate r.jobs).passed = true ↔ r.success = true) ∧
      (r.success = true ↔ r.exitCode = 0) ∧
      (Gate.evaluate r.jobs).violations =
        (r.jobs.flatMap fun j => (Gate.evaluate [j]).violations) ∧
      (∀ j ∈ r.jobs, ((Gate.evaluate [j]).violations = [] ↔ j.success = true) ∧
        ∀ v ∈ (Gate.evaluate [j]).violations, ∃ rest, v = "Job '" ++ j.job.id.text ++ "'" ++ rest) ∧
      (0 ≤ r.exitCode ∧ r.exitCode ≤ 255) ∧
      ∀ before j after, r.jobs = before ++ j :: after → (∀ k ∈ before, k.success = true) →
        j.success = false →
        r.exitCode = if 1 ≤ j.exitCode ∧ j.exitCode ≤ 255 then j.exitCode else 1 := by
  constructor
  · intro valid narrow returns
    obtain ⟨endings, v, -, rfl, -⟩ := ends.concluded valid narrow
    obtain ⟨rs, settled⟩ := settle_isSome (m := standard c id reporter) returns stamps endings v
    exact ⟨_, by rw [settled]; rfl⟩
  · rintro r rfl
    obtain ⟨endings, v, concluded, settled⟩ := ends.settled_of_ok
    have results := concluded.results settled
    have fine : ∀ j ∈ r.jobs, Gate.jobViolations j = [] ↔ j.success = true := by
      intro j mem
      obtain ⟨job, -, isResult⟩ := exists_isResultOf results mem
      exact isResult.jobViolations_iff
    obtain ⟨zero, bounds⟩ := r.exitCode_spec
    refine ⟨map_job_results results, ?_, zero, Gate.violations_evaluate r.jobs,
      fun j mem => ⟨?_, fun v hv => ?_⟩, bounds,
      fun before j after => MatrixResult.exitCode_of_first⟩
    · rw [Gate.passed_evaluate_iff, MatrixResult.success_iff]
      exact forall₂_congr fine
    · rw [Gate.violations_evaluate_one, List.map_eq_nil_iff]
      exact fine j mem
    · rw [Gate.violations_evaluate_one] at hv
      obtain ⟨violation, -, rfl⟩ := List.mem_map.mp hv
      exact violation.message_names j.job.id.text

theorem verdict_agrees_broken :
    let m := standard twoJobs ⟨"token"⟩ .noop
    let stamps : Nat → Stamp := fun _ => ⟨"run", "now"⟩
    let w : World := ⟨⟨[]⟩, []⟩
    ∃ t r w', m.Ends brokenHost stamps w t (some (.ok r)) w' ∧
      r.jobs.map (·.job) = twoJobs.jobs ∧
      ((Gate.evaluate r.jobs).passed = true ↔ r.success = true) ∧
      (r.success = true ↔ r.exitCode = 0) := by
  intro m stamps w
  have valid : twoJobs.validate = .ok () := by rfl
  obtain ⟨t, ends⟩ := m.ends_run brokenHost stamps w (by decide)
  obtain ⟨result, verdict⟩ := verdict_agrees twoJobs ⟨"token"⟩ .noop brokenHost stamps w _ t _ ends
  obtain ⟨r, eq⟩ := result valid (by decide) fun _ _ _ => trivial
  obtain ⟨jobs, gate, zero, -⟩ := verdict r eq
  exact ⟨t, r, _, eq ▸ ends, jobs, gate, zero⟩

/-- A matrix of the standard pipeline that reports through the helper always comes to an end,
whatever the command runner breaks down at and whatever the order in which jobs take their steps. It
comes to nothing exactly if the command runner breaks down once more while the session of a job is
closed for it. Otherwise each job has its result, and that is its own if the command runner did not
break down for it. -/
theorem returns_unless_closing_breaks_down (c : Config) (id : ReporterId) (helper : Helper)
    (host : Host) (stamps : Nat → Stamp) (w : World) (valid : c.validate = .ok ())
    (narrow : c.matrix.parallelism ≤ permitLimit) :
    let m := standard c id helper.reporter
    (WellFounded fun b a => ∃ u, Board.Step host c.matrix.parallelism a u b) ∧
    (∀ t b, (m.opening host stamps c.jobs w.renewed).Reaches host c.matrix.parallelism t b →
      ∃ u out w', m.Ends host stamps w (t ++ u) out w') ∧
    ∀ t out w', m.Ends host stamps w t out w' →
      ∃ endings v, m.Concluded host stamps w t endings v ∧
        (∀ job r, (job, r) ∈ endings → (r.isSome ↔ (t.of job.id).isBroken = false)) ∧
        (out = none ↔ ∃ before job after rs u, endings = before ++ (job, none) :: after ∧
          m.settle host stamps before v = (some rs, u) ∧ m.BreaksDownLate helper host job t u) ∧
        (out ≠ none → ∃ r, out = some (.ok r) ∧
          List.Forall₂ (m.Reports host.cwd.path stamps t) c.jobs r.jobs) := by
  intro m
  have orderly : m.pipeline.Orderly m.reporter :=
    JobPipeline.standard_orderly c (fun _ _ => (helper.opened_sound _ _).neverCloses)
      fun _ _ _ => (helper.closed_sound _ _ _).neverCloses
  have steady : m.pipeline.IsSteady m.reporter :=
    JobPipeline.standard_steady c (fun _ _ => (helper.opened_sound _ _).steady)
      fun _ _ _ => (helper.closed_sound _ _ _).steady
  refine ⟨Board.step_wellFounded host _, fun t b => exists_ends (m := m) valid narrow,
    fun t out w' ends => ?_⟩
  obtain ⟨endings, v, concluded, rfl, -⟩ := ends.concluded valid narrow
  refine ⟨endings, v, concluded, fun job r => concluded.isSome_iff steady, ?_, fun returned => ?_⟩
  · rw [Option.map_eq_none_iff, settle_eq_none_iff]
    constructor
    · rintro ⟨before, job, after, rs, u, split, settled, late⟩
      refine ⟨before, job, after, rs, u, split, settled, ?_⟩
      exact (concluded.breaksDownLate_iff rfl orderly valid split settled).mp late
    · rintro ⟨before, job, after, rs, u, split, settled, late⟩
      refine ⟨before, job, after, rs, u, split, settled, ?_⟩
      exact (concluded.breaksDownLate_iff rfl orderly valid split settled).mpr late
  · rcases results : m.settle host stamps endings v with ⟨_ | rs, u⟩
    · rw [results] at returned
      exact absurd rfl returned
    · exact ⟨m.resultOf stamps rs, rfl, concluded.reports steady results⟩

/-- The command runner breaks down only at the first job's copy of the helper, and no job gets a
result. -/
theorem returns_unless_closing_breaks_down_copy :
    let helper := Helper.ofConfig twoJobs.reporter ⟨"/work"⟩
    let m := standard twoJobs ⟨"token"⟩ helper.reporter
    let host := brokenCopyHost "/work/cc-test-reporter-python-2.7"
    let stamps : Nat → Stamp := fun _ => ⟨"run", "now"⟩
    let w : World := ⟨⟨[(["work"], .directory)]⟩, []⟩
    ∃ t w' job u, m.Ends host stamps w t none w' ∧ m.BreaksDownLate helper host job t u := by
  intro helper m host stamps w
  have valid : twoJobs.validate = .ok () := by rfl
  have nothing : (m.run host stamps w).1 = none := by
    have computed : (m.run host stamps w).1.isNone = true := by decide +kernel
    exact Option.isNone_iff_eq_none.mp computed
  obtain ⟨t, ends⟩ := m.ends_run host stamps w (by decide)
  obtain ⟨-, -, every⟩ := returns_unless_closing_breaks_down twoJobs ⟨"token"⟩ helper host stamps w
    valid (by decide)
  obtain ⟨endings, v, -, -, broken, -⟩ := every t _ _ ends
  obtain ⟨before, job, after, rs, u, -, -, late⟩ := broken.mp nothing
  exact ⟨t, _, job, u, nothing ▸ ends, late⟩

/-- In a matrix whose jobs keep to themselves no more jobs run at a time than are allowed, every
schedule can be carried to an end, and at its end the matrix has a result in which each job, in the
order of the matrix, has what it would have come to alone: its own result, or that of its breakdown.
-/
theorem results_are_those_alone (m : MatrixRunner) (host : Host) (stamps : Nat → Stamp) (w : World)
    (reads : JobId → Files.Location → Prop) (valid : m.config.validate = .ok ())
    (narrow : m.config.matrix.parallelism ≤ permitLimit)
    (returns : ∀ id scope code, (m.reporter.closed id scope code).Returns host)
    (isolates : m.Isolates host stamps reads) :
    (∀ t b, (m.opening host stamps m.config.jobs w.renewed).Reaches host
        m.config.matrix.parallelism t b →
      b.runningCount ≤ m.config.matrix.parallelism ∧
      ∃ u out w', m.Ends host stamps w (t ++ u) out w') ∧
    ∀ t out w', m.Ends host stamps w t out w' → ∃ r, out = some (.ok r) ∧
      List.Forall₂ (fun job result => m.alone host stamps w job = some result) m.config.jobs
        r.jobs := by
  refine ⟨fun t b reached => ⟨?_, exists_ends valid narrow reached⟩, fun t out w' ends => ?_⟩
  · refine reached.runningCount_le ?_
    rw [runningCount_opening]
    exact Nat.zero_le _
  · cases ends with
    | refused h => exact absurd h (Config.expand_ne_error valid _)
    | unpermitted _ wide => exact absurd narrow (Nat.not_le_of_lt wide)
    | @settled jobs t b endings h _ reached ended =>
      obtain ⟨-, rfl⟩ := Config.expand_eq_ok_iff.mp h
      have concluded := concluded_of_reaches h reached ended
      obtain ⟨rs, settled⟩ := settle_isSome returns stamps endings b.world
      refine ⟨m.resultOf stamps rs, by rw [settled]; rfl, ?_⟩
      have among : ∀ e ∈ endings, e.1 ∈ m.config.jobs := fun e mem =>
        concluded.jobs_eq ▸ List.mem_map_of_mem mem
      have own := isolates.settle_alone among (concluded.nodup_ids valid)
        (fun job r mem => isolates.ending valid reached ended mem) settled
      rw [← concluded.jobs_eq]
      exact List.forall₂_map_left_iff.mpr own

/-- A matrix of two jobs whose tests are told their version. -/
def namedJobs : Config :=
  { twoJobs with tests := { command := ["nosetests", "\x7bversion\x7d"] } }

/-- Surroundings in which the command runner breaks down at the tests of one version, and every
other command ends well. -/
def patchyHost (version : String) : Host where
  cwd := []
  command i w := ⟨if version ∈ i.args then none else some (.ok ⟨0, "", "", 0⟩), w.files⟩
  service _ _ := .ok ()
  download _ _ := .ok .empty

/-- The data file and the report of a job in the root directory. -/
def ownFiles (job : JobId) (l : Files.Location) : Prop :=
  l ∈ [[], [".coverage." ++ job.text], ["coverage-" ++ job.text ++ ".xml"]]

theorem results_are_those_alone_patchy :
    let m := standard namedJobs ⟨"token"⟩ .noop
    let stamps : Nat → Stamp := fun _ => ⟨"run", "now"⟩
    let w : World := ⟨⟨[]⟩, []⟩
    ∃ t r w', m.Ends (patchyHost "2.7") stamps w t (some (.ok r)) w' ∧
      List.Forall₂ (fun job result => m.alone (patchyHost "2.7") stamps w job = some result)
        m.config.jobs r.jobs := by
  intro m stamps w
  have valid : namedJobs.validate = .ok () := by rfl
  have isolates : m.Isolates (patchyHost "2.7") stamps ownFiles := by
    have command : ∀ job ∈ namedJobs.jobs, ∀ i : Invocation,
        (Request.command i).IsOwnOf (patchyHost "2.7") ownFiles namedJobs.jobs job :=
      fun _ _ _ => Request.isOwnOf_command (fun _ _ alike => ⟨rfl, alike.files⟩)
        fun _ _ _ _ => .refl _ _
    refine standard_isolates namedJobs ⟨"token"⟩ .noop stamps ?_ ?_ ?_ command
      (fun _ _ _ => trivial) fun _ _ _ _ => trivial
    · unfold Files.Covers ownFiles
      decide +kernel
    · unfold Files.Covers ownFiles
      decide +kernel
    · unfold ownFiles
      decide +kernel
  obtain ⟨t, ends⟩ := m.ends_run (patchyHost "2.7") stamps w (by decide)
  obtain ⟨-, every⟩ := results_are_those_alone m (patchyHost "2.7") stamps w ownFiles valid
    (by decide) (fun _ _ _ => trivial) isolates
  obtain ⟨r, eq, results⟩ := every t _ _ ends
  exact ⟨t, r, _, eq ▸ ends, results⟩

/-- The identifier of a project shows nowhere. Under two identifiers, given by the configuration or
to the matrix, a matrix of the standard pipeline has the same digest, the same jobs and the same
plan, and however it ends under one of them, it can end under the other with the same result; the
files are the same then, and of the commands only the helper's differ, in the value of the variable
that holds the identifier. -/
theorem identifier_stays_secret (c : Config) (key : Option String) (id id' : ReporterId)
    (reporter : Reporter) (host : Host) (stamps : Nat → Stamp) (w : World)
    (discreet : reporter.IsDiscreet c.reporter.idEnv) (ignores : host.Ignores c.reporter.idEnv) :
    let m := standard c id reporter
    let m' := standard (c.withId key) id' reporter
    m'.config.digest = m.config.digest ∧
    m'.config.expand = m.config.expand ∧
    (∀ cwd, m'.plan cwd = (m.plan cwd).map fun jobs =>
      jobs.map fun (ctx, steps) => (ctx.withId id', steps)) ∧
    ∀ t out w', m.Ends host stamps w t out w' → ∃ t' v', m'.Ends host stamps w t' out v' ∧
      w'.files = v'.files ∧
      List.Forall₂ (Invocation.AlikeUpTo c.reporter.idEnv) w'.invocations v'.invocations := by
  intro m m'
  refine ⟨rfl, Config.expand_withId, plan_withId, fun t out w' ends => ?_⟩
  obtain ⟨t', v', ends', alike⟩ := (standard_inStep discreet).ends ignores ends
  exact ⟨t', v', ends', alike.files, alike.invocations⟩

/-- Two projects that report through the helper. -/
theorem identifier_stays_secret_helper :
    let helper := Helper.ofConfig twoJobs.reporter ⟨"/work"⟩
    let host := brokenCopyHost "false"
    let stamps : Nat → Stamp := fun _ => ⟨"run", "now"⟩
    let w : World := ⟨⟨[(["work"], .directory)]⟩, []⟩
    ∃ t out w' t' v', (standard twoJobs ⟨"token"⟩ helper.reporter).Ends host stamps w t out w' ∧
      (standard (twoJobs.withId (some "other")) ⟨"other"⟩ helper.reporter).Ends host stamps w t' out
        v' ∧
      List.Forall₂ (Invocation.AlikeUpTo "CC_TEST_REPORTER_ID") w'.invocations v'.invocations := by
  intro helper host stamps w
  have ignores : host.Ignores twoJobs.reporter.idEnv := by
    refine ⟨fun i j w v alike worlds => ?_, fun _ _ _ _ _ _ => rfl, fun _ _ _ _ => rfl⟩
    have program : i.program = j.program := by
      cases alike <;> rfl
    simp only [host, brokenCopyHost, program, worlds.files]
  obtain ⟨t, ends⟩ :=
    (standard twoJobs ⟨"token"⟩ helper.reporter).ends_run host stamps w (by decide)
  obtain ⟨-, -, -, every⟩ := identifier_stays_secret twoJobs (some "other") ⟨"token"⟩ ⟨"other"⟩
    helper.reporter host stamps w helper.reporter_isDiscreet ignores
  obtain ⟨t', v', ends', -, alike⟩ := every t _ _ ends
  exact ⟨t, _, _, t', v', ends, ends', alike⟩

end CoverageMatrix.MatrixRunner
