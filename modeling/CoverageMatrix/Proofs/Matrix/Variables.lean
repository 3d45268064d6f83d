import CoverageMatrix.Proofs.Job.Variables
import CoverageMatrix.Proofs.Matrix.Plan

/-!
# What a matrix tells its commands

The variables of every command of a matrix that reports through the helper, from those of the
configuration to the identifier, in the order in which they are set, also of the commands that close
the sessions of jobs that broke down (`MatrixRunner.commands_run_under`).
-/
namespace CoverageMatrix

/-! ## The settings of a job -/

namespace Config

variable {c : Config} {job : Job}

/-- The variables of a job of the matrix, as they are set one after the other. -/
def jobSettings (c : Config) (job : Job) : List (String × String) :=
  c.env.entries ++ [(interpreterVariable, c.matrix.interpreter), (versionVariable, job.version),
    (jobNumberVariable, toString job.number)]

/-- The variables of all commands of a job. -/
def settings (c : Config) (cwd : Path) (job : Job) : List (String × String) :=
  c.jobSettings job ++ [(c.tests.coverageEnv,
    (JobContext.dataFile (c.workdir.absolute cwd) c.tests job.id).text)]

theorem env_of_mem_jobs (mem : job ∈ c.jobs) : job.env.IsSetBy (c.jobSettings job) := by
  obtain ⟨place, version, -, rfl⟩ := exists_of_mem_jobsFrom mem
  have set := ((c.env.isSetBy_entries.insert interpreterVariable c.matrix.interpreter).insert
    versionVariable version).insert jobNumberVariable (toString place)
  rwa [List.append_assoc, List.append_assoc] at set

theorem env_start (mem : job ∈ c.jobs) (id : ReporterId) (reporter : CoverageMatrix.Reporter)
    (cwd : Path) : (JobContext.start c job id reporter cwd).env.IsSetBy (c.settings cwd job) :=
  (env_of_mem_jobs mem).insert _ _

end Config

/-! ## Closing the sessions of jobs that broke down -/

namespace MatrixRunner

variable {m : MatrixRunner} {helper : Helper}

theorem lateCall_tells (reports : m.reporter = helper.reporter) (cwd : Path) (job : Job) :
    (m.lateCall cwd job).Obeys (Request.Hands (helper.Tells m.reporterId
      (m.contextFor cwd job).scope "reporter after-build")) True fun _ => True := by
  have call : (Request.note (.session (.closing m.reporterId (m.contextFor cwd job).scope
    setupFailureCode))).IsIdle := rfl
  rw [lateCall, reports]
  refine ⟨call.hands _, fun _ => ?_⟩
  exact (helper.closed_tells _ _ _).mono (fun _ => id) False.elim fun _ => id

end MatrixRunner

/-! ## Results -/

theorem History.filterMap_record (h : History) :
    (h.map record).filterMap (·.resultCode) = h.codes := by
  rw [List.filterMap_map, codes]
  refine congrArg (List.filterMap · h) (funext fun e => ?_)
  obtain ⟨kind, _ | _ | reason | code⟩ := e <;> rfl

namespace MatrixRunner

variable {c : Config} {id : ReporterId} {helper : Helper} {host : Host} {stamps : Nat → Stamp}
  {w v : World} {t : Trace} {endings : List JobEnding} {job : Job} {cwd : Path}

/-- The codes in the records of a job that came to its end are those that its tests gave. -/
theorem IsResultOf.codes_eq {r : JobResult}
    (h : (standard c id helper.reporter).IsResultOf cwd stamps t job r) (ended : r.phases ≠ []) :
    r.phases.filterMap (·.resultCode) = (t.of job.id).testCodes := by
  cases h with
  | own course =>
    have codes := course.codes_eq (JobPipeline.standard_testCodes c helper rfl)
    exact (History.filterMap_record _).trans codes
  | crash => exact absurd rfl ended

theorem Concluded.runsUnder
    (h : (standard c id helper.reporter).Concluded host stamps w t endings v)
    (tells : helper.idEnv = c.reporter.idEnv) (mem : job ∈ c.jobs) {u u' : Trace} {x : Exchange}
    (split : t = u ++ (job.id, x) :: u') : ∀ i ∈ commandsOf x.request.notes,
      i.RunsUnder (c.workdir.absolute host.cwd.path) (c.settings host.cwd.path job ++
        i.extras (u.of job.id).testCodes.head? c.reporter.idEnv id) ∧
      (i.IsExport → (u.of job.id).testCodes.head? = some 0) := by
  intro i handed
  obtain ⟨r, ended⟩ := h.exists_ending mem
  obtain ⟨e, course, -⟩ := h.course ended
  have own : t.of job.id = u.of job.id ++ x :: u'.of job.id := by
    rw [split, Trace.of_append]
    simp [Trace.of]
  have start := Config.env_start mem id helper.reporter host.cwd.path
  have both := course.runsUnder helper rfl start own handed
  rwa [tells] at both

/-- The commands that close the sessions of jobs that broke down are told of no tests. -/
theorem Concluded.late_runUnder
    (h : (standard c id helper.reporter).Concluded host stamps w t endings v)
    (tells : helper.idEnv = c.reporter.idEnv) :
    ∃ late, ((standard c id helper.reporter).settle host stamps endings v).2.invocations =
        w.invocations ++ commandsOf t.notes ++ late ∧
      ∀ i ∈ late, i.label = "reporter after-build" ∧ ∃ job ∈ c.jobs,
        (t.of job.id).isBroken = true ∧ i.RunsUnder (c.workdir.absolute host.cwd.path)
          (c.settings host.cwd.path job ++ i.extras none c.reporter.idEnv id) := by
  have steady : (JobPipeline.standard c).IsSteady helper.reporter :=
    JobPipeline.standard_steady c (fun _ _ => (helper.opened_sound _ _).steady)
      fun _ _ _ => (helper.closed_sound _ _ _).steady
  have call (job : Job) := lateCall_tells (m := standard c id helper.reporter) rfl host.cwd.path job
  obtain ⟨late, eq, each⟩ := settle_hands stamps endings v call
  refine ⟨late, by rw [eq, h.invocations], fun i mem => ?_⟩
  obtain ⟨job, ended, told⟩ := each i mem
  have among : job ∈ c.jobs := h.mem_jobs ended
  have broken : (t.of job.id).isBroken = true := by
    have ended := h.isSome_iff steady ended
    simpa using ended
  refine ⟨told.label, job, among, broken, told.cwd, ?_⟩
  have start := Config.env_start among id helper.reporter host.cwd.path
  have set := start.insert helper.idEnv id.expose
  have env : i.env = (JobContext.start c job id helper.reporter host.cwd.path).env.insert
    helper.idEnv id.expose := told.env
  rw [env, Invocation.extras, told.label, ← tells]
  simpa using set

/-- Whatever the command runner does and in whatever order the jobs of a valid matrix take their
steps, each command of a job runs in the job's directory and under these variables, of which a later
one hides an earlier one of the same name: those of the configuration; the interpreter, the version
and the number of the job; its data file; for the export and the end of the session the first code
that the tests have given by then; and for the helper the identifier. An export comes only after
tests that returned zero. The commands that end the sessions of jobs that broke down are told no
code. The jobs in a result are those of the configuration, and the codes in the records of one that
came to its end are those that its tests gave. -/
theorem commands_run_under_settings (c : Config) (id : ReporterId) (dir : Path) (host : Host)
    (stamps : Nat → Stamp) (w w' : World) (t : Trace)
    (out : Option (Except PipelineError MatrixResult)) (valid : c.validate = .ok ())
    (ends : (standard c id (Helper.ofConfig c.reporter dir).reporter).Ends host stamps w t out w') :
    let home := c.workdir.absolute host.cwd.path
    (∀ (u u' : Trace) name x, t = u ++ (name, x) :: u' → ∃ job ∈ c.jobs, job.id = name ∧
      ∀ i ∈ commandsOf x.request.notes,
        i.RunsUnder home (c.settings host.cwd.path job ++
          i.extras (u.of name).testCodes.head? c.reporter.idEnv id) ∧
        (i.IsExport → (u.of name).testCodes.head? = some 0)) ∧
    (∃ late, w'.invocations = w.invocations ++ commandsOf t.notes ++ late ∧
      ∀ i ∈ late, i.label = "reporter after-build" ∧ ∃ job ∈ c.jobs,
        (t.of job.id).isBroken = true ∧ i.RunsUnder home (c.settings host.cwd.path job ++
          i.extras none c.reporter.idEnv id)) ∧
    (∀ job ∈ c.jobs, job.env.IsSetBy (c.jobSettings job)) ∧
    ∀ r, out = some (.ok r) → c.expand = .ok (r.jobs.map (·.job)) ∧
      ∀ j ∈ r.jobs, j.phases ≠ [] →
        j.phases.filterMap (·.resultCode) = (t.of j.job.id).testCodes := by
  intro home
  have results : ∀ r, out = some (.ok r) → c.expand = .ok (r.jobs.map (·.job)) ∧
      ∀ j ∈ r.jobs, j.phases ≠ [] →
        j.phases.filterMap (·.resultCode) = (t.of j.job.id).testCodes := by
    rintro r rfl
    have jobs_eq : r.jobs.map (·.job) = c.jobs := map_job_results ends.results
    refine ⟨Config.expand_eq_ok_iff.mpr ⟨valid, jobs_eq⟩, fun j mem ended => ?_⟩
    obtain ⟨job, -, result⟩ := exists_isResultOf ends.results mem
    rw [result.job_eq]
    exact result.codes_eq ended
  rcases ends.unpermitted_or_concluded valid with ⟨rfl, rfl, rfl⟩ | ⟨endings, v, concluded, rfl⟩
  · refine ⟨fun u u' name x split => by simp at split, ⟨[], ?_, List.forall_mem_nil _⟩,
      fun job => Config.env_of_mem_jobs, results⟩
    simp [Trace.notes, commandsOf]
  · refine ⟨fun u u' name x split => ?_, concluded.late_runUnder rfl,
      fun job => Config.env_of_mem_jobs, results⟩
    obtain ⟨job, mem, rfl⟩ := concluded.named (name, x) (by simp [split])
    exact ⟨job, mem, rfl, concluded.runsUnder rfl mem split⟩

/-- A matrix in which the data file and the identifier have the names of other variables. -/
def collidingJobs : Config :=
  { namedJobs with
    tests := { namedJobs.tests with coverageEnv := testResultVariable }
    reporter := { idEnv := interpreterVariable } }

/-- The code of the tests hides the data file. -/
theorem commands_run_under_settings_colliding :
    let helper := Helper.ofConfig collidingJobs.reporter ⟨"/"⟩
    let m := standard collidingJobs ⟨"token"⟩ helper.reporter
    let stamps : Nat → Stamp := fun _ => ⟨"run", "now"⟩
    let w : World := ⟨⟨[]⟩, []⟩
    ∃ t out w', m.Ends (patchyHost "2.7") stamps w t out w' ∧ (∃ i ∈ w'.invocations, i.IsExport) ∧
      ∀ i ∈ w'.invocations, i.IsExport → i.env.get? testResultVariable = some "0" := by
  intro helper m stamps w
  have valid : collidingJobs.validate = .ok () := by rfl
  have computed : (m.run (patchyHost "2.7") stamps w).2.invocations.any
      (·.label = "coverage export") = true := by
    decide +kernel
  obtain ⟨t, ends⟩ := m.ends_run (patchyHost "2.7") stamps w (by decide)
  obtain ⟨each, ⟨late, all, closing⟩, -⟩ := commands_run_under_settings collidingJobs ⟨"token"⟩
    ⟨"/"⟩ (patchyHost "2.7") stamps w _ t _ valid ends
  refine ⟨t, _, _, ends, by simpa [Invocation.IsExport] using computed, fun i mem exports => ?_⟩
  have label : i.label = "coverage export" := exports
  have none : w.invocations = [] := rfl
  rw [all, none, List.nil_append] at mem
  rcases List.mem_append.mp mem with mem | mem
  · obtain ⟨e, among, handed⟩ := mem_commandsOf_notes.mp mem
    obtain ⟨⟨name, x⟩, made, rfl⟩ := List.mem_map.mp among
    obtain ⟨u, u', split⟩ := List.append_of_mem made
    obtain ⟨job, -, -, told⟩ := each u u' name x split
    obtain ⟨runs, zero⟩ := told i handed
    have extras (idEnv : String) (id : ReporterId) :
        i.extras (some 0) idEnv id = [(testResultVariable, "0")] := by
      simp only [Invocation.extras, label]
      rfl
    rw [runs.env, zero exports, extras, List.reverse_append]
    exact EnvVars.lookup_cons_self _ _ _
  · have other := (closing i mem).1
    rw [label] at other
    simp at other

end MatrixRunner
end CoverageMatrix
