import CoverageMatrix.Proofs.Job.Closing
import CoverageMatrix.Proofs.Matrix.Board
import CoverageMatrix.Proofs.Matrix.Jobs
import Mathlib.Data.List.Forall2

/-!
# From the last job to the result

When all jobs of a matrix have ended, each in the way its own exchanges tell (`Concluded`), the
sessions of those that broke down are closed one after the other. A job keeps the result it had; one
that broke down gets the result of a crash, and the whole run breaks down only in closing the
session of such a job.
-/
namespace CoverageMatrix.MatrixRunner

/-! ## The last job has ended -/

/-- The jobs of a matrix have ended: each has followed its own part of the trace to its ending, and
the trace has left its notes in the world. -/
structure Concluded (m : MatrixRunner) (host : Host) (stamps : Nat → Stamp) (w : World) (t : Trace)
    (endings : List JobEnding) (v : World) : Prop where
  jobs_eq : endings.map Prod.fst = m.config.jobs
  follows : ∀ job r, (job, r) ∈ endings →
    (m.program host.cwd.path stamps job).Follows (t.of job.id) r
  named : ∀ s ∈ t, ∃ job ∈ m.config.jobs, job.id = s.1
  journal : v.journal = w.renewed.journal ++ t.notes

variable {m : MatrixRunner} {host : Host} {stamps : Nat → Stamp} {w v v' : World} {t : Trace}
  {endings : List JobEnding} {job : Job} {r : Option JobResult}

theorem opening_consistent (jobs : List Job) :
    (m.opening host stamps jobs w).Consistent (m.program host.cwd.path stamps) jobs w [] where
  jobs_eq := by simp [opening, Function.comp_def]
  agrees := by
    intro job task mem
    obtain ⟨job, -, eq⟩ := List.mem_map.mp mem
    cases eq
    exact .waiting rfl
  named := by simp
  journal := by simp [opening]

theorem concluded_of_reaches {jobs : List Job} {permits : Nat} {b : Board}
    (h : m.config.expand = .ok jobs)
    (reached : (m.opening host stamps jobs w.renewed).Reaches host permits t b)
    (ended : b.endings = some endings) : m.Concluded host stamps w t endings b.world := by
  obtain ⟨valid, rfl⟩ := Config.expand_eq_ok_iff.mp h
  have consistent := reached.consistent (Config.nodup_ids_of_valid valid) (opening_consistent _)
  have tasks := Board.endings_eq_some_iff.mp ended
  refine ⟨?_, fun job r mem => ?_, consistent.named, consistent.journal⟩
  · rw [← consistent.jobs_eq, tasks, closing, List.map_map]
    rfl
  · have agrees := consistent.agrees job (.ended r) (tasks ▸ List.mem_map.mpr ⟨_, mem, rfl⟩)
    cases agrees with
    | ended follows => exact follows

/-- Whatever the schedule of a valid matrix is, its jobs come to endings, and their settlement is
what the matrix comes to. -/
theorem Ends.concluded {out : Option (Except PipelineError MatrixResult)}
    (ends : m.Ends host stamps w t out v) (valid : m.config.validate = .ok ())
    (narrow : m.config.matrix.parallelism ≤ permitLimit) :
    ∃ endings u, m.Concluded host stamps w t endings u ∧
      out = (m.settle host stamps endings u).1.map (fun rs => .ok (m.resultOf stamps rs)) ∧
      v = (m.settle host stamps endings u).2 := by
  cases ends with
  | refused h => exact absurd h (Config.expand_ne_error valid _)
  | unpermitted h wide => exact absurd narrow (Nat.not_le_of_lt wide)
  | settled h _ reached ended => exact ⟨_, _, concluded_of_reaches h reached ended, rfl, rfl⟩

/-- A result of a matrix is made of the results that its jobs are settled with. -/
theorem Ends.settled_of_ok {r : MatrixResult}
    (ends : m.Ends host stamps w t (some (.ok r)) v) :
    ∃ endings u, m.Concluded host stamps w t endings u ∧
      m.settle host stamps endings u = (some r.jobs, v) := by
  generalize ho : some (Except.ok r) = out at ends
  cases ends with
  | refused => cases ho
  | unpermitted => cases ho
  | @settled jobs t b endings h _ reached ended =>
    obtain ⟨rs, settled, eq⟩ := Option.map_eq_some_iff.mp ho.symm
    cases eq
    exact ⟨endings, b.world, concluded_of_reaches h reached ended, Prod.ext settled rfl⟩

theorem Concluded.course (h : m.Concluded host stamps w t endings v) (mem : (job, r) ∈ endings) :
    let ctx := m.contextFor host.cwd.path job
    ∃ e, Course ctx [] ctx.findings m.pipeline.phases (t.of job.id) e ∧
      r = e.map fun q => q.1.result job q.2 (stamps job.number) :=
  (m.pipeline.follows_run_iff (stamps job.number) rfl rfl).mp (h.follows job r mem)

theorem Concluded.exists_ending (h : m.Concluded host stamps w t endings v)
    (mem : job ∈ m.config.jobs) : ∃ r, (job, r) ∈ endings := by
  rw [← h.jobs_eq] at mem
  obtain ⟨⟨job, r⟩, mem', rfl⟩ := List.mem_map.mp mem
  exact ⟨r, mem'⟩

theorem Concluded.nodup_ids (h : m.Concluded host stamps w t endings v)
    (valid : m.config.validate = .ok ()) : (endings.map fun e => e.1.id).Nodup := by
  have nodup := Config.nodup_ids_of_valid valid
  rwa [← h.jobs_eq, List.map_map] at nodup

/-! ## One job that broke down -/

/-- The result of a job that broke down, with what came of closing its session for it. -/
def crashedResult (stamps : Nat → Stamp) (job : Job) (reportError : Option String) : JobResult :=
  { JobResult.crashed job crashReason (stamps job.number) with reportError := reportError }

/-- The call that closes the session of a job that broke down. -/
def lateCall (m : MatrixRunner) (cwd : Path) (job : Job) : Program (Except PipelineError Unit) :=
  m.reporter.closeSession m.reporterId (m.contextFor cwd job).scope setupFailureCode

theorem recover_of_begun (h : v.hasBegunClosing job.id = true) :
    m.recover host stamps job v = (some (crashedResult stamps job none), v) := by
  rw [recover, if_pos h]
  rfl

theorem recover_of_not_begun (h : v.hasBegunClosing job.id = false) :
    m.recover host stamps job v =
      (((m.lateCall host.cwd.path job).run host v).1.map fun reply =>
          crashedResult stamps job (match reply with
            | .ok () => none
            | .error e => some (closingFailure e)),
        ((m.lateCall host.cwd.path job).run host v).2) := by
  rw [recover, if_neg (by simp [h]), lateCall]
  rcases call : (m.reporter.closeSession m.reporterId (m.contextFor host.cwd.path job).scope
    setupFailureCode).run host v with ⟨_ | _ | ⟨⟨⟩⟩, u⟩ <;> simp only [call] <;> rfl

theorem recover_eq_none_iff : (m.recover host stamps job v).1 = none ↔
    v.hasBegunClosing job.id = false ∧ ((m.lateCall host.cwd.path job).run host v).1 = none := by
  cases begun : v.hasBegunClosing job.id with
  | true => simp [recover_of_begun begun]
  | false => simp [recover_of_not_begun begun]

theorem recover_result {r : JobResult} (h : (m.recover host stamps job v).1 = some r) :
    ∃ why, r = crashedResult stamps job why := by
  cases begun : v.hasBegunClosing job.id with
  | true =>
    rw [recover_of_begun begun] at h
    exact ⟨none, (Option.some.inj h).symm⟩
  | false =>
    rw [recover_of_not_begun begun] at h
    obtain ⟨reply, -, rfl⟩ := Option.map_eq_some_iff.mp h
    exact ⟨_, rfl⟩

/-- The notes that closing the session of a job adds, if the job broke down before it began to. -/
def lateClosings (m : MatrixRunner) (cwd : Path) (v : World) (ending : JobEnding) : List Note :=
  if ending.2.isNone && !v.hasBegunClosing ending.1.id then
    [.session (.closing m.reporterId (m.contextFor cwd ending.1).scope setupFailureCode)]
  else []

theorem lateCall_returns (returns : ∀ id scope code, (m.reporter.closed id scope code).Returns host)
    (cwd : Path) (job : Job) : (m.lateCall cwd job).Returns host :=
  fun _ => ⟨(), rfl, returns _ _ _⟩

/-- Settling a job that broke down closes its session by one call if need be, and no other session.
-/
theorem recover_closings
    (closed : ∀ id scope code, (m.reporter.closed id scope code).NeverCloses) (id : JobId) :
    closingsOf id (m.recover host stamps job v).2.journal = closingsOf id v.journal ++
      if job.id = id then m.lateClosings host.cwd.path v (job, none) else [] := by
  cases begun : v.hasBegunClosing job.id with
  | true => simp [recover_of_begun begun, lateClosings, begun]
  | false =>
    obtain ⟨u, follows, journal⟩ := Program.exists_follows_run host (m.lateCall host.cwd.path job) v
    rw [recover_of_not_begun begun, journal, closingsOf_append, Transcript.closingsOf_notes,
      Reporter.closings_closeSession (closed _ _ _) follows]
    have scope : (m.contextFor host.cwd.path job).scope.jobId = job.id := rfl
    rcases eq_or_ne job.id id with rfl | h
    · simp [lateClosings, begun, scope]
    · simp [scope, h]

/-! ## All jobs -/

def settleJob (m : MatrixRunner) (host : Host) (stamps : Nat → Stamp) (ending : JobEnding)
    (v : World) : Option JobResult × World :=
  match ending.2 with
  | some r => (some r, v)
  | none => m.recover host stamps ending.1 v

theorem settle_cons (ending : JobEnding) :
    m.settle host stamps (ending :: endings) v =
      match m.settleJob host stamps ending v with
      | (none, u) => (none, u)
      | (some r, u) =>
        ((m.settle host stamps endings u).1.map (r :: ·), (m.settle host stamps endings u).2) := by
  obtain ⟨job, _ | r⟩ := ending
  · rw [settle, settleJob]
    rcases m.recover host stamps job v with ⟨_ | r, u⟩ <;> rfl
  · rfl

/-- A job that came to a result keeps it, and one that broke down gets the result of a crash. -/
def SettledAs (stamps : Nat → Stamp) (ending : JobEnding) (r : JobResult) : Prop :=
  ending.2 = some r ∨ ending.2 = none ∧ ∃ why, r = crashedResult stamps ending.1 why

theorem settleJob_result {ending : JobEnding} {r : JobResult}
    (h : m.settleJob host stamps ending v = (some r, v')) : SettledAs stamps ending r := by
  obtain ⟨job, _ | own⟩ := ending
  · exact .inr ⟨rfl, recover_result (congrArg Prod.fst h)⟩
  · exact .inl (congrArg Prod.fst h)

theorem settle_results {rs : List JobResult} (h : m.settle host stamps endings v = (some rs, v')) :
    List.Forall₂ (SettledAs stamps) endings rs := by
  induction endings generalizing v rs with
  | nil =>
    cases h
    exact .nil
  | cons ending rest ih =>
    rw [settle_cons] at h
    rcases one : m.settleJob host stamps ending v with ⟨_ | r, u⟩ <;> simp only [one] at h
    · cases h
    · obtain ⟨results, rfl⟩ := Prod.mk.inj h
      obtain ⟨rs, more, rfl⟩ := Option.map_eq_some_iff.mp results
      exact .cons (settleJob_result one) (ih (Prod.ext more rfl))

/-- A whole settlement fails only in closing the session of a job that broke down. -/
theorem settle_eq_none_iff :
    (m.settle host stamps endings v).1 = none ↔
      ∃ before job after rs u, endings = before ++ (job, none) :: after ∧
        m.settle host stamps before v = (some rs, u) ∧
        (m.recover host stamps job u).1 = none := by
  induction endings generalizing v with
  | nil => simp [settle]
  | cons ending rest ih =>
    rw [settle_cons]
    constructor
    · intro h
      rcases one : m.settleJob host stamps ending v with ⟨_ | r, u⟩ <;> simp only [one] at h
      · obtain ⟨job, _ | own⟩ := ending
        · exact ⟨[], job, rest, [], v, rfl, rfl, congrArg Prod.fst one⟩
        · cases one
      · obtain ⟨before, job, after, rs, u', rfl, settled, late⟩ :=
          ih.mp (Option.map_eq_none_iff.mp h)
        refine ⟨ending :: before, job, after, r :: rs, u', rfl, ?_, late⟩
        rw [settle_cons, one]
        simp [settled]
    · rintro ⟨before, job, after, rs, u, eq, settled, late⟩
      cases before with
      | nil =>
        cases eq
        cases settled
        have one : (m.settleJob host stamps (job, none) v).1 = none := late
        rcases h : m.settleJob host stamps (job, none) v with ⟨_ | r, u'⟩
        · rfl
        · rw [h] at one
          cases one
      | cons first before =>
        cases eq
        rw [settle_cons] at settled
        rcases one : m.settleJob host stamps ending v with ⟨_ | r, u'⟩
        · rfl
        · rw [one] at settled
          obtain ⟨results, rfl⟩ := Prod.mk.inj settled
          obtain ⟨rs, more, rfl⟩ := Option.map_eq_some_iff.mp results
          apply Option.map_eq_none_iff.mpr
          exact ih.mpr ⟨before, job, after, rs, _, rfl, Prod.ext more rfl, late⟩

theorem settle_isSome (returns : ∀ id scope code, (m.reporter.closed id scope code).Returns host)
    (stamps : Nat → Stamp) (endings : List JobEnding) (v : World) :
    ∃ rs, (m.settle host stamps endings v).1 = some rs := by
  apply Option.ne_none_iff_exists'.mp
  intro failed
  obtain ⟨_, job, _, _, u, -, -, late⟩ := settle_eq_none_iff.mp failed
  obtain ⟨reply, replied⟩ := (lateCall_returns returns host.cwd.path job).run u
  rw [(recover_eq_none_iff.mp late).2] at replied
  cases replied

theorem settleJob_closings
    (closed : ∀ id scope code, (m.reporter.closed id scope code).NeverCloses) (ending : JobEnding)
    (id : JobId) :
    closingsOf id (m.settleJob host stamps ending v).2.journal = closingsOf id v.journal ++
      if ending.1.id = id then m.lateClosings host.cwd.path v ending else [] := by
  obtain ⟨job, _ | r⟩ := ending
  · exact recover_closings closed id
  · simp [settleJob, lateClosings]

/-- When all jobs are settled, the sessions of those that broke down before they began to close them
have been closed by one call each, and nothing else has changed for any session. -/
theorem settle_closings
    (closed : ∀ id scope code, (m.reporter.closed id scope code).NeverCloses)
    (distinct : (endings.map fun e => e.1.id).Nodup) {rs : List JobResult}
    (settled : m.settle host stamps endings v = (some rs, v')) :
    (∀ id, (∀ e ∈ endings, e.1.id ≠ id) → closingsOf id v'.journal = closingsOf id v.journal) ∧
      ∀ e ∈ endings, closingsOf e.1.id v'.journal =
        closingsOf e.1.id v.journal ++ m.lateClosings host.cwd.path v e := by
  induction endings generalizing v rs with
  | nil =>
    cases settled
    exact ⟨fun _ _ => rfl, fun _ mem => absurd mem List.not_mem_nil⟩
  | cons ending rest ih =>
    obtain ⟨fresh, distinct⟩ := List.nodup_cons.mp distinct
    have fresh : ∀ e ∈ rest, e.1.id ≠ ending.1.id := fun e mem eq =>
      fresh (List.mem_map.mpr ⟨e, mem, eq⟩)
    have first : ∀ id, closingsOf id (m.settleJob host stamps ending v).2.journal =
        closingsOf id v.journal ++
          if ending.1.id = id then m.lateClosings host.cwd.path v ending else [] :=
      settleJob_closings closed ending
    rw [settle_cons] at settled
    rcases one : m.settleJob host stamps ending v with ⟨_ | r, u⟩ <;> simp only [one] at settled first
    · cases settled
    · obtain ⟨results, rfl⟩ := Prod.mk.inj settled
      obtain ⟨rs, more, rfl⟩ := Option.map_eq_some_iff.mp results
      obtain ⟨others, own⟩ := ih distinct (Prod.ext more rfl)
      refine ⟨fun id other => ?_, fun e mem => ?_⟩
      · rw [others id fun e mem => other e (List.mem_cons_of_mem _ mem), first,
          if_neg (other ending List.mem_cons_self), List.append_nil]
      · rcases List.mem_cons.mp mem with rfl | mem
        · rw [others e.1.id fresh, first, if_pos rfl]
        · have same : closingsOf e.1.id u.journal = closingsOf e.1.id v.journal := by
            rw [first, if_neg (fresh e mem).symm, List.append_nil]
          rw [own e mem, same, lateClosings, lateClosings, World.hasBegunClosing_congr same]

/-! ## The results -/

/-- What the result of a job is: that of its history if it came to its end, and that of a crash if
it broke down. -/
inductive IsResultOf (m : MatrixRunner) (cwd : Path) (stamps : Nat → Stamp) (t : Trace) (job : Job) :
    JobResult → Prop
  | own {h : History} {f : Findings}
    (course : Course (m.contextFor cwd job) [] (m.contextFor cwd job).findings m.pipeline.phases
      (t.of job.id) (some (h, f))) : IsResultOf m cwd stamps t job (h.result job f (stamps job.number))
  | crash {why : Option String}
    (course : Course (m.contextFor cwd job) [] (m.contextFor cwd job).findings m.pipeline.phases
      (t.of job.id) none) : IsResultOf m cwd stamps t job (crashedResult stamps job why)

theorem Concluded.settled {R : Job → JobResult → Prop} {rs : List JobResult}
    (h : m.Concluded host stamps w t endings v)
    (settled : m.settle host stamps endings v = (some rs, v'))
    (each : ∀ job ending result, (job, ending) ∈ endings →
      SettledAs stamps (job, ending) result → R job result) :
    List.Forall₂ R m.config.jobs rs := by
  rw [← h.jobs_eq, List.forall₂_map_left_iff]
  refine ((List.forall₂_and_left (p := fun e => e ∈ endings) _ _).mpr
    ⟨fun _ mem => mem, settle_results settled⟩).imp ?_
  rintro ⟨job, ending⟩ result ⟨mem, settledAs⟩
  exact each job ending result mem settledAs

theorem Concluded.results {rs : List JobResult} (h : m.Concluded host stamps w t endings v)
    (settled : m.settle host stamps endings v = (some rs, v')) :
    List.Forall₂ (m.IsResultOf host.cwd.path stamps t) m.config.jobs rs := by
  refine h.settled settled fun job ending result mem settledAs => ?_
  obtain ⟨e, course, rfl⟩ := h.course mem
  rcases settledAs with own | ⟨none, why, rfl⟩
  · obtain ⟨⟨history, findings⟩, rfl, rfl⟩ := Option.map_eq_some_iff.mp own
    exact .own course
  · obtain rfl := Option.map_eq_none_iff.mp none
    exact .crash course

theorem exists_isResultOf {cwd : Path} {jobs : List Job} {rs : List JobResult}
    (results : List.Forall₂ (m.IsResultOf cwd stamps t) jobs rs) {result : JobResult}
    (mem : result ∈ rs) : ∃ job ∈ jobs, m.IsResultOf cwd stamps t job result := by
  induction results with
  | nil => cases mem
  | cons one _ ih =>
    rcases List.mem_cons.mp mem with rfl | mem
    · exact ⟨_, List.mem_cons_self, one⟩
    · obtain ⟨job, mem, isResult⟩ := ih mem
      exact ⟨job, List.mem_cons_of_mem _ mem, isResult⟩

theorem IsResultOf.job_eq {cwd : Path} {result : JobResult}
    (h : m.IsResultOf cwd stamps t job result) : result.job = job := by
  cases h <;> rfl

theorem map_job_results {cwd : Path} {jobs : List Job} {rs : List JobResult}
    (results : List.Forall₂ (m.IsResultOf cwd stamps t) jobs rs) : rs.map (·.job) = jobs := by
  induction results with
  | nil => rfl
  | cons one _ ih => rw [List.map_cons, one.job_eq, ih]

end CoverageMatrix.MatrixRunner
