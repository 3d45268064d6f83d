import CoverageMatrix.Proofs.Job.Plan
import CoverageMatrix.Proofs.Matrix.Theorems
import CoverageMatrix.Proofs.Phase.Install

/-!
# A matrix runs what it plans

Each job of a matrix runs lines of its own plan, and the sessions that are closed for jobs that broke
down add no command if the reporter hands over none. So the commands of a matrix are those of its
plan, as far as each job gets.
-/
namespace CoverageMatrix

/-! ## Commands that are handed over outside of jobs -/

theorem World.invocations_renewed (w : World) : w.renewed.invocations = w.invocations := by
  rw [invocations, invocations, renewed, List.filterMap_filter]
  refine congrArg (List.filterMap · w.journal) (funext fun n => ?_)
  cases n <;> rfl

namespace MatrixRunner

variable {m : MatrixRunner} {host : Host} {stamps : Nat → Stamp} {w v w' : World} {t : Trace}
  {endings : List JobEnding} {job : Job}

theorem recover_hands (stamps : Nat → Stamp) (v : World) {P : Invocation → Prop}
    (hands : (m.lateCall host.cwd.path job).Obeys (Request.Hands P) True fun _ => True) :
    ∃ late, (m.recover host stamps job v).2.invocations = v.invocations ++ late ∧
      ∀ i ∈ late, P i := by
  cases begun : v.hasBegunClosing job.id with
  | true =>
    rw [recover_of_begun begun]
    exact ⟨[], (List.append_nil _).symm, List.forall_mem_nil _⟩
  | false =>
    obtain ⟨u, follows, journal⟩ := Program.exists_follows_run host (m.lateCall host.cwd.path job) v
    refine ⟨commandsOf u.notes, ?_, hands.hands follows⟩
    rw [recover_of_not_begun begun, World.invocations_eq, journal, commandsOf_append,
      World.invocations_eq]

variable {P : Job → Invocation → Prop}

theorem settleJob_hands (stamps : Nat → Stamp) (v : World)
    (hands : ∀ job, (m.lateCall host.cwd.path job).Obeys (Request.Hands (P job)) True fun _ => True)
    (ending : JobEnding) :
    ∃ late, (m.settleJob host stamps ending v).2.invocations = v.invocations ++ late ∧
      ∀ i ∈ late, ending.2 = none ∧ P ending.1 i := by
  obtain ⟨job, _ | r⟩ := ending
  · obtain ⟨late, eq, each⟩ := recover_hands stamps v (hands job)
    exact ⟨late, eq, fun i mem => ⟨rfl, each i mem⟩⟩
  · exact ⟨[], (List.append_nil _).symm, List.forall_mem_nil _⟩

/-- The commands that are handed over to close the sessions of jobs that broke down. -/
theorem settle_hands (stamps : Nat → Stamp) (endings : List JobEnding) (v : World)
    (hands : ∀ job, (m.lateCall host.cwd.path job).Obeys (Request.Hands (P job)) True fun _ => True) :
    ∃ late, (m.settle host stamps endings v).2.invocations = v.invocations ++ late ∧
      ∀ i ∈ late, ∃ job, (job, none) ∈ endings ∧ P job i := by
  induction endings generalizing v with
  | nil => exact ⟨[], (List.append_nil _).symm, List.forall_mem_nil _⟩
  | cons ending rest ih =>
    obtain ⟨late, first, own⟩ := settleJob_hands stamps v hands ending
    have own : ∀ i ∈ late, ∃ job, (job, none) ∈ ending :: rest ∧ P job i := fun i mem =>
      ⟨ending.1, by rw [← (own i mem).1]; exact List.mem_cons_self, (own i mem).2⟩
    rw [settle_cons]
    rcases one : m.settleJob host stamps ending v with ⟨_ | r, u⟩ <;> rw [one] at first
    · exact ⟨late, first, own⟩
    · obtain ⟨more, eq, others⟩ := ih u
      refine ⟨late ++ more, by rw [eq, first, List.append_assoc], fun i mem => ?_⟩
      rcases List.mem_append.mp mem with mem | mem
      · exact own i mem
      · obtain ⟨job, among, p⟩ := others i mem
        exact ⟨job, List.mem_cons_of_mem _ among, p⟩

theorem settle_invocations (idle : m.reporter.IsIdle) :
    (m.settle host stamps endings v).2.invocations = v.invocations := by
  have hands : ∀ job, (m.lateCall host.cwd.path job).Obeys (Request.Hands fun _ => False) True
      fun _ => True := by
    intro job
    have call : (Request.note (.session (.closing m.reporterId
      (m.contextFor host.cwd.path job).scope setupFailureCode))).IsIdle := rfl
    exact ⟨call.hands _, fun _ => (idle.closed _ _ _).mono (fun _ idle => idle.hands _) id
      fun _ => id⟩
  obtain ⟨late, eq, none⟩ :=
    settle_hands stamps endings v (P := fun _ _ => False) hands
  obtain rfl : late = [] := List.eq_nil_iff_forall_not_mem.mpr fun i mem => by
    obtain ⟨-, -, absurd⟩ := none i mem
    exact absurd
  rw [eq, List.append_nil]

theorem Concluded.invocations (h : m.Concluded host stamps w t endings v) :
    v.invocations = w.invocations ++ commandsOf t.notes := by
  rw [World.invocations_eq, h.journal, commandsOf_append, ← World.invocations_eq,
    World.invocations_renewed]

/-- Each command that jobs have handed over was handed over in an exchange of one of them. -/
theorem Concluded.exists_exchange (h : m.Concluded host stamps w t endings v) {i : Invocation}
    (mem : i ∈ commandsOf t.notes) : ∃ job ∈ m.config.jobs, ∃ u x u',
      t = u ++ (job.id, x) :: u' ∧ i ∈ commandsOf x.request.notes := by
  obtain ⟨x, among, handed⟩ := mem_commandsOf_notes.mp mem
  obtain ⟨⟨name, x⟩, made, rfl⟩ := List.mem_map.mp among
  obtain ⟨job, own, rfl⟩ := h.named _ made
  obtain ⟨u, u', split⟩ := List.append_of_mem made
  exact ⟨job, own, u, x, u', split, handed⟩

theorem Concluded.mem_jobs (h : m.Concluded host stamps w t endings v) {r : Option JobResult}
    (ended : (job, r) ∈ endings) : job ∈ m.config.jobs := by
  have listed := List.mem_map_of_mem (f := Prod.fst) ended
  rwa [h.jobs_eq] at listed

/-! ## Jobs and their results -/

theorem Ends.unpermitted_or_concluded {out : Option (Except PipelineError MatrixResult)}
    (ends : m.Ends host stamps w t out w') (valid : m.config.validate = .ok ()) :
    (t = [] ∧ out = none ∧ w' = w) ∨ ∃ endings v, m.Concluded host stamps w t endings v ∧
      w' = (m.settle host stamps endings v).2 := by
  cases ends with
  | refused h => exact absurd h (Config.expand_ne_error valid _)
  | unpermitted => exact .inl ⟨rfl, rfl, rfl⟩
  | settled h _ reached ended => exact .inr ⟨_, _, concluded_of_reaches h reached ended, rfl⟩

/-- A valid matrix is not refused. -/
theorem Ends.ne_error {out : Option (Except PipelineError MatrixResult)}
    (ends : m.Ends host stamps w t out w') (valid : m.config.validate = .ok ()) (e : PipelineError) :
    out ≠ some (.error e) := by
  cases ends with
  | refused h => exact absurd h (Config.expand_ne_error valid _)
  | unpermitted => exact (Option.some_ne_none _).symm
  | @settled jobs t b endings =>
    intro refused
    obtain ⟨rs, -, eq⟩ := Option.map_eq_some_iff.mp refused
    cases eq

theorem Ends.results {r : MatrixResult} (ends : m.Ends host stamps w t (some (.ok r)) w') :
    List.Forall₂ (m.IsResultOf host.cwd.path stamps t) m.config.jobs r.jobs := by
  obtain ⟨endings, v, concluded, settled⟩ := ends.settled_of_ok
  exact concluded.results settled

/-- What a job would do: its context, and its steps phase by phase. -/
def planFor (m : MatrixRunner) (cwd : Path) (job : Job) :
    JobContext × List (PhaseKind × List String) :=
  (m.contextFor cwd job, m.pipeline.plan (m.contextFor cwd job))

theorem job_planFor (cwd : Path) (job : Job) : (m.planFor cwd job).1.job = job := rfl

theorem plan_eq (valid : m.config.validate = .ok ()) (cwd : Path) :
    m.plan cwd = .ok (m.config.jobs.map (m.planFor cwd)) := by
  rw [plan, Config.expand_eq_ok_iff.mpr ⟨valid, rfl⟩]
  rfl

end MatrixRunner

/-- A phase was carried out: it passed, or completed with a code. -/
def PhaseRecord.isCarriedOut (p : PhaseRecord) : Bool :=
  p.status = .passed || p.status = .completed

theorem History.exists_of_mem_phases {h : History} {job : Job} {f : Findings} {stamp : Stamp}
    {p : PhaseRecord} (mem : p ∈ (h.result job f stamp).phases) (carried : p.isCarriedOut = true) :
    ∃ o, (p.kind, some o) ∈ h ∧ o.isCarriedOut = true := by
  obtain ⟨⟨kind, o⟩, entry, rfl⟩ := List.mem_map.mp mem
  rcases o with _ | _ | reason | code
  · cases carried
  · exact ⟨.passed, entry, rfl⟩
  · cases carried
  · exact ⟨.completed code, entry, rfl⟩

namespace MatrixRunner

variable {m : MatrixRunner} {host : Host} {stamps : Nat → Stamp} {w v : World} {t : Trace}
  {endings : List JobEnding} {job : Job} {cwd : Path}

theorem IsResultOf.runsThrough {r : JobResult} {e : Stage} {part : PhaseKind → Transcript}
    {lines : PhaseKind → List String} (h : m.IsResultOf cwd stamps t job r)
    (course : Course (m.contextFor cwd job) [] (m.contextFor cwd job).findings m.pipeline.phases
      (t.of job.id) e)
    (all : ∀ h f, e = some (h, f) → h.RunsThrough part lines) :
    ∀ p ∈ r.phases, p.isCarriedOut = true → (part p.kind).lines = lines p.kind := by
  cases h with
  | own own =>
    obtain rfl := course.unique own
    intro p mem carried
    obtain ⟨o, mem, carried⟩ := History.exists_of_mem_phases mem carried
    exact all _ _ rfl p.kind o mem carried
  | crash => exact fun p mem => absurd mem List.not_mem_nil

theorem Concluded.exists_execution {c : Config} {id : ReporterId} {reporter : Reporter}
    (h : (standard c id reporter).Concluded host stamps w t endings v) (idle : reporter.IsIdle)
    (mem : job ∈ c.jobs) :
    let ctx := (standard c id reporter).contextFor host.cwd.path job
    ∃ x : ctx.Execution (c.commandPlan ctx) (t.of job.id),
      ∀ r, (standard c id reporter).IsResultOf host.cwd.path stamps t job r →
        ∀ p ∈ r.phases, p.isCarriedOut = true →
          (x.part p.kind).lines = (c.commandPlan ctx).of p.kind := by
  intro ctx
  obtain ⟨r, ended⟩ := h.exists_ending mem
  obtain ⟨e, course, -⟩ := h.course ended
  have idle : ctx.reporter.IsIdle := idle
  obtain ⟨x, all⟩ := course.exists_execution idle
  exact ⟨x, fun r result => result.runsThrough course all⟩

/-- The plan of a valid matrix of the standard pipeline has the jobs that a run has, in the same
order, and the lines of an installation are those of its tasks in their order. Whatever the command
runner does and in whatever order jobs take their steps, a job runs lines of its plan: those of the
installation as far as it gets, and all of them before the session is opened; then the line of the
tests, only if the session was opened and earlier coverage data was erased; then the line of the
export, only if the tests returned zero. Nothing else is run, if the reporter hands over no command.
A phase that passed or completed has run all its lines; if all phases have, the job has run its
plan. -/
theorem runs_what_it_plans (c : Config) (id : ReporterId) (reporter : Reporter) (host : Host)
    (stamps : Nat → Stamp) (w w' : World) (t : Trace)
    (out : Option (Except PipelineError MatrixResult)) (valid : c.validate = .ok ())
    (idle : reporter.IsIdle) (ends : (standard c id reporter).Ends host stamps w t out w') :
    ∃ jobs, (standard c id reporter).plan host.cwd.path = .ok jobs ∧
      jobs.map (·.1.job) = c.jobs ∧
      (∀ r, out = some (.ok r) → r.jobs.map (·.job) = c.jobs) ∧
      w'.invocations = w.invocations ++ commandsOf t.notes ∧
      (∀ s ∈ t, ∃ p ∈ jobs, p.1.job.id = s.1) ∧
      ∀ ctx steps, (ctx, steps) ∈ jobs → ∃ plan : CommandPlan, steps = plan.steps ctx ∧
        plan.installs = (InstallTask.reference c.installers c.dependencies).map
          (·.line c.installers ctx.job) ∧
        ∃ x : ctx.Execution plan (t.of ctx.job.id),
          ∀ r, out = some (.ok r) → ∀ j ∈ r.jobs, j.job = ctx.job →
            (∀ p ∈ j.phases, p.isCarriedOut = true → (x.part p.kind).lines = plan.of p.kind) ∧
            ((∀ kind, ∃ p ∈ j.phases, p.kind = kind ∧ p.isCarriedOut = true) →
              (t.of ctx.job.id).lines = plan.installs ++ [plan.test, plan.exports]) := by
  have jobs_eq : (c.jobs.map ((standard c id reporter).planFor host.cwd.path)).map (·.1.job) =
      c.jobs := by
    simp [Function.comp_def, job_planFor]
  have results : ∀ r, out = some (.ok r) →
      List.Forall₂ ((standard c id reporter).IsResultOf host.cwd.path stamps t) c.jobs r.jobs := by
    rintro r rfl
    exact ends.results
  refine ⟨_, plan_eq valid host.cwd.path, jobs_eq,
    fun r returned => map_job_results (results r returned), ?_⟩
  rcases ends.unpermitted_or_concluded valid with ⟨rfl, rfl, rfl⟩ | ⟨endings, v, concluded, rfl⟩
  · -- no job has begun
    refine ⟨(List.append_nil _).symm, fun s mem => absurd mem List.not_mem_nil,
      fun ctx steps mem => ?_⟩
    obtain ⟨job, -, eq⟩ := List.mem_map.mp mem
    cases eq
    refine ⟨_, JobPipeline.plan_standard c _, Phase.describe_install _ _ _, .unbegun _ _,
      fun r returned => ?_⟩
    cases returned
  · refine ⟨?_, fun s mem => ?_, fun ctx steps mem => ?_⟩
    · rw [settle_invocations idle, concluded.invocations]
    · obtain ⟨job, mem, named⟩ := concluded.named s mem
      exact ⟨_, List.mem_map_of_mem mem, named⟩
    · obtain ⟨job, among, eq⟩ := List.mem_map.mp mem
      cases eq
      obtain ⟨x, all⟩ := concluded.exists_execution idle among
      refine ⟨_, JobPipeline.plan_standard c _, Phase.describe_install _ _ _, x,
        fun r returned j mem same => ?_⟩
      obtain ⟨job', -, result⟩ := exists_isResultOf (results r returned) mem
      obtain rfl : job' = job := result.job_eq.symm.trans same
      refine ⟨all j result, fun every => x.lines_eq fun kind => ?_⟩
      obtain ⟨p, mem, rfl, carried⟩ := every kind
      exact all j result p mem carried

/-- A matrix of two jobs that install a package of the system and one of the language. -/
def equippedJobs : Config :=
  { twoJobs with
    dependencies := [⟨.system, some "libxml2", none⟩, ⟨.language, some "lxml", none⟩] }

/-- Where every command ends well, each job runs its whole plan. -/
theorem runs_what_it_plans_equipped :
    let m := standard equippedJobs ⟨"token"⟩ .noop
    let host := brokenCopyHost "false"
    let stamps : Nat → Stamp := fun _ => ⟨"run", "now"⟩
    let w : World := ⟨⟨[(["work"], .directory)]⟩, []⟩
    ∃ jobs t out w', m.plan host.cwd.path = .ok jobs ∧ m.Ends host stamps w t out w' ∧
      ∀ ctx steps, (ctx, steps) ∈ jobs → ∃ plan : CommandPlan, steps = plan.steps ctx ∧
        (t.of ctx.job.id).lines = plan.installs ++ [plan.test, plan.exports] := by
  intro m host stamps w
  have valid : equippedJobs.validate = .ok () := by rfl
  have idle : Reporter.noop.IsIdle := ⟨fun _ _ => trivial, fun _ _ _ => trivial⟩
  have computed : ((m.run host stamps w).1.bind Except.toOption).any (fun r => r.jobs.all fun j =>
      PhaseKind.all.all fun kind => j.phases.any fun p => p.kind = kind && p.isCarriedOut) = true := by
    decide +kernel
  obtain ⟨t, ends⟩ := m.ends_run host stamps w (by decide)
  obtain ⟨jobs, planned, of_config, same, -, -, each⟩ :=
    runs_what_it_plans equippedJobs ⟨"token"⟩ .noop host stamps w _ t _ valid idle ends
  refine ⟨jobs, t, _, _, planned, ends, fun ctx steps mem => ?_⟩
  obtain ⟨plan, shown, -, x, results⟩ := each ctx steps mem
  refine ⟨plan, shown, ?_⟩
  rcases returned : (m.run host stamps w).1 with _ | e | r <;> rw [returned] at computed
  · cases computed
  · cases computed
  · have among : ctx.job ∈ r.jobs.map (·.job) := by
      rw [same r returned, ← of_config]
      exact List.mem_map_of_mem mem
    obtain ⟨j, mem, own⟩ := List.mem_map.mp among
    refine (results r returned j mem own).2 fun kind => ?_
    have all := List.all_eq_true.mp (List.all_eq_true.mp computed j mem) kind
      (by cases kind <;> decide)
    simpa using all

end MatrixRunner
end CoverageMatrix
