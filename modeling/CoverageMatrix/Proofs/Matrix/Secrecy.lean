import CoverageMatrix.Proofs.Job.Discretion
import CoverageMatrix.Proofs.Matrix.Settling

/-!
# Matrices that differ in the identifier

A schedule of a matrix is step by step a schedule of the same matrix under another identifier, if
its jobs and its reporter keep the identifier to themselves: boards that are alike stay alike
(`Board.AlikeUpTo.reaches`), and so are their settlements (`MatrixRunner.settle_alike`).
-/
namespace CoverageMatrix

variable {name : String} {host : Host}

/-! ## One job -/

/-- Two jobs have got equally far in programs that are alike. -/
inductive Task.AlikeUpTo (name : String) : Task → Task → Prop
  | waiting {p q : Program JobResult} (h : p.AlikeUpTo name Eq q) :
    AlikeUpTo name (.waiting p) (.waiting q)
  | running {p q : Program JobResult} (h : p.AlikeUpTo name Eq q) :
    AlikeUpTo name (.running p) (.running q)
  | ended (r : Option JobResult) : AlikeUpTo name (.ended r) (.ended r)

theorem Task.AlikeUpTo.isRunning_eq {a b : Task} (h : a.AlikeUpTo name b) :
    a.isRunning = b.isRunning := by
  cases h <;> rfl

/-- What one of two jobs does next, the other one does as well. -/
theorem Task.AlikeUpTo.moves (ignores : host.Ignores name) {a a' b : Task} {w w' v : World}
    {u : Transcript} (h : a.AlikeUpTo name a') (alike : w.AlikeUpTo name v)
    (m : a.Moves host w u b w') :
    ∃ u' b' v', a'.Moves host v u' b' v' ∧ b.AlikeUpTo name b' ∧ w'.AlikeUpTo name v' := by
  cases m with
  | finish r =>
    cases h with
    | running h =>
      cases h with
      | done eq =>
        subst eq
        exact ⟨_, _, _, .finish r v, .ended _, alike⟩
  | breakDown =>
    cases h with
    | running h =>
      cases h
      exact ⟨_, _, _, .breakDown v, .ended _, alike⟩
  | answered answered =>
    cases h with
    | running h =>
      obtain ⟨r', next', rfl, ⟨w'', v', hw, hv, after⟩ | ⟨x, x', w'', v', hw, hv, rest, after⟩⟩ :=
        h.answer ignores alike
      · cases answered.symm.trans hw
      · cases answered.symm.trans hw
        exact ⟨_, _, _, .answered hv, .running rest, after⟩
  | unanswered unanswered =>
    cases h with
    | running h =>
      obtain ⟨r', next', rfl, ⟨w'', v', hw, hv, after⟩ | ⟨x, x', w'', v', hw, hv, rest, after⟩⟩ :=
        h.answer ignores alike
      · cases unanswered.symm.trans hw
        exact ⟨_, _, _, .unanswered hv, .ended _, after⟩
      · cases unanswered.symm.trans hw

/-! ## All jobs -/

namespace Board

/-- Two boards have the same jobs, each equally far on both, in worlds that are alike. -/
structure AlikeUpTo (name : String) (a b : Board) : Prop where
  tasks : List.Forall₂ (fun x y => x.1 = y.1 ∧ x.2.AlikeUpTo name y.2) a.tasks b.tasks
  world : a.world.AlikeUpTo name b.world

theorem forall₂_middle {α : Type} {R : α → α → Prop} {before after others : List α} {x : α}
    (h : List.Forall₂ R (before ++ x :: after) others) :
    ∃ before' x' after', others = before' ++ x' :: after' ∧ R x x' ∧
      ∀ y y', R y y' → List.Forall₂ R (before ++ y :: after) (before' ++ y' :: after') := by
  induction before generalizing others with
  | nil =>
    cases h with
    | cons first rest => exact ⟨[], _, _, rfl, first, fun _ _ related => .cons related rest⟩
  | cons y before ih =>
    cases h with
    | cons first rest =>
      obtain ⟨before', x', after', rfl, related, replace⟩ := ih rest
      exact ⟨_ :: before', x', after', rfl, related, fun y y' h => .cons first (replace y y' h)⟩

theorem runningCount_alike {xs ys : List (Job × Task)}
    (h : List.Forall₂ (fun x y => x.1 = y.1 ∧ x.2.AlikeUpTo name y.2) xs ys) (w v : World) :
    runningCount ⟨xs, w⟩ = runningCount ⟨ys, v⟩ := by
  simp only [runningCount]
  induction h with
  | nil => rfl
  | cons related _ ih => simp only [List.countP_cons, ih, related.2.isRunning_eq]

variable {permits : Nat} {a b c : Board} {t : Trace}

theorem AlikeUpTo.step (ignores : host.Ignores name) (h : a.AlikeUpTo name b)
    (s : a.Step host permits t c) : ∃ u d, b.Step host permits u d ∧ c.AlikeUpTo name d := by
  obtain ⟨tasks', v⟩ := b
  obtain ⟨tasks, world⟩ := h
  cases s with
  | enter idle =>
    obtain ⟨before', ⟨job', t'⟩, after', rfl, ⟨rfl, task⟩, replace⟩ := forall₂_middle tasks
    cases task with
    | waiting h =>
      rw [runningCount_alike tasks _ v] at idle
      exact ⟨_, _, .enter idle, replace _ _ ⟨rfl, .running h⟩, world⟩
  | move m =>
    obtain ⟨before', ⟨job', t'⟩, after', rfl, ⟨rfl, task⟩, replace⟩ := forall₂_middle tasks
    obtain ⟨u', b', v', m', task', after⟩ := task.moves ignores world m
    exact ⟨_, _, .move m', replace _ _ ⟨rfl, task'⟩, after⟩

theorem AlikeUpTo.reaches (ignores : host.Ignores name) (h : a.AlikeUpTo name b)
    (r : a.Reaches host permits t c) :
    ∃ u d, b.Reaches host permits u d ∧ c.AlikeUpTo name d := by
  induction r with
  | refl => exact ⟨[], b, .refl, h⟩
  | tail _ s ih =>
    obtain ⟨u, d, reached, alike⟩ := ih
    obtain ⟨u', d', s', alike⟩ := alike.step ignores s
    exact ⟨_, d', reached.tail s', alike⟩

theorem eq_closing_of_alike {endings : List JobEnding} {tasks : List (Job × Task)}
    (h : List.Forall₂ (fun x y => x.1 = y.1 ∧ x.2.AlikeUpTo name y.2) (MatrixRunner.closing endings)
      tasks) : tasks = MatrixRunner.closing endings := by
  induction endings generalizing tasks with
  | nil =>
    cases h
    rfl
  | cons ending rest ih =>
    cases h with
    | @cons _ y _ _ first others =>
      obtain ⟨job, task⟩ := y
      obtain ⟨rfl, task⟩ := first
      cases task
      rw [ih others]
      rfl

theorem AlikeUpTo.endings_eq (h : a.AlikeUpTo name b) {endings : List JobEnding}
    (ended : a.endings = some endings) : b.endings = some endings := by
  have tasks := h.tasks
  rw [endings_eq_some_iff.mp ended] at tasks
  exact endings_eq_some_iff.mpr (eq_closing_of_alike tasks)

end Board

/-! ## From the endings to the result -/

namespace MatrixRunner

/-- Two matrices with the same jobs, of which each does the same under either identifier. -/
structure InStep (name : String) (host : Host) (stamps : Nat → Stamp) (m m' : MatrixRunner) :
    Prop where
  expand : m'.config.expand = m.config.expand
  digest : m'.config.digest = m.config.digest
  parallelism : m'.config.matrix.parallelism = m.config.matrix.parallelism
  program : ∀ job, (m.program host.cwd.path stamps job).AlikeUpTo name Eq
    (m'.program host.cwd.path stamps job)
  lateCall : ∀ job, (m.lateCall host.cwd.path job).AlikeUpTo name Eq
    (m'.lateCall host.cwd.path job)

variable {m m' : MatrixRunner} {stamps : Nat → Stamp} {w v : World}

theorem InStep.opening (h : InStep name host stamps m m') (jobs : List Job)
    (alike : w.AlikeUpTo name v) :
    (m.opening host stamps jobs w).AlikeUpTo name (m'.opening host stamps jobs v) where
  tasks := by
    simp only [MatrixRunner.opening, List.forall₂_map_left_iff, List.forall₂_map_right_iff]
    exact List.forall₂_same.mpr fun job _ => ⟨rfl, .waiting (h.program job)⟩
  world := alike

theorem InStep.settleJob (ignores : host.Ignores name) (h : InStep name host stamps m m')
    (ending : JobEnding) (alike : w.AlikeUpTo name v) :
    (m.settleJob host stamps ending w).1 = (m'.settleJob host stamps ending v).1 ∧
      (m.settleJob host stamps ending w).2.AlikeUpTo name
        (m'.settleJob host stamps ending v).2 := by
  obtain ⟨job, _ | r⟩ := ending
  · change (m.recover host stamps job w).1 = (m'.recover host stamps job v).1 ∧
      (m.recover host stamps job w).2.AlikeUpTo name (m'.recover host stamps job v).2
    have same := alike.hasBegunClosing_eq job.id
    obtain ⟨reply, after⟩ := (h.lateCall job).run ignores alike
    cases begun : w.hasBegunClosing job.id with
    | true =>
      rw [recover_of_begun begun, recover_of_begun (same ▸ begun)]
      exact ⟨rfl, alike⟩
    | false =>
      rw [recover_of_not_begun begun, recover_of_not_begun (same ▸ begun), reply]
      exact ⟨rfl, after⟩
  · exact ⟨rfl, alike⟩

theorem InStep.settle (ignores : host.Ignores name) (h : InStep name host stamps m m')
    (endings : List JobEnding) (alike : w.AlikeUpTo name v) :
    (m.settle host stamps endings w).1 = (m'.settle host stamps endings v).1 ∧
      (m.settle host stamps endings w).2.AlikeUpTo name (m'.settle host stamps endings v).2 := by
  induction endings generalizing w v with
  | nil => exact ⟨rfl, alike⟩
  | cons ending rest ih =>
    have first := h.settleJob ignores ending alike
    rw [settle_cons, settle_cons]
    rcases hw : m.settleJob host stamps ending w with ⟨o, w'⟩
    rcases hv : m'.settleJob host stamps ending v with ⟨o', v'⟩
    rw [hw, hv] at first
    obtain ⟨rfl, after⟩ := first
    cases o with
    | none => exact ⟨rfl, after⟩
    | some r =>
      obtain ⟨same, last⟩ := ih after
      exact ⟨congrArg (Option.map (r :: ·)) same, last⟩

/-- However a matrix ends, it can end so under the other identifier, with the same result, the same
files and a journal that is alike. -/
theorem InStep.ends (ignores : host.Ignores name) (h : InStep name host stamps m m') {t : Trace}
    {out : Option (Except PipelineError MatrixResult)} {w w' : World}
    (ends : m.Ends host stamps w t out w') :
    ∃ t' v', m'.Ends host stamps w t' out v' ∧ w'.AlikeUpTo name v' := by
  cases ends with
  | refused e => exact ⟨[], w, .refused (h.expand.trans e), .refl name w⟩
  | unpermitted e wide =>
    exact ⟨[], w, .unpermitted (h.expand.trans e) (h.parallelism ▸ wide), .refl name w⟩
  | @settled jobs _ b endings e narrow reached ended =>
    obtain ⟨u, d, reached', alike⟩ :=
      (h.opening jobs (.refl name w.renewed)).reaches ignores reached
    obtain ⟨same, after⟩ := h.settle ignores endings alike.world
    have results : m.resultOf stamps = m'.resultOf stamps := by
      funext jobs
      rw [resultOf, resultOf, h.digest]
    rw [← h.parallelism] at reached'
    refine ⟨u, _, ?_, after⟩
    rw [same, results]
    exact .settled (h.expand.trans e) (h.parallelism ▸ narrow) reached' (alike.endings_eq ended)

end MatrixRunner

/-! ## The standard pipeline under two identifiers -/

/-- A configuration with another identifier. -/
def Config.withId (c : Config) (id : Option String) : Config :=
  { c with reporter := { c.reporter with id := id } }

variable {c : Config} {key : Option String}

theorem Config.jobsFrom_withId (number : Nat) (versions : List String) :
    (c.withId key).jobsFrom number versions = c.jobsFrom number versions := by
  induction versions generalizing number with
  | nil => rfl
  | cons v rest ih =>
    have first : (c.withId key).job number v = c.job number v := rfl
    rw [jobsFrom, jobsFrom, first, ih]

theorem Config.expand_withId : (c.withId key).expand = c.expand := by
  have valid : (c.withId key).validate = c.validate := rfl
  have jobs : (c.withId key).jobs = c.jobs := jobsFrom_withId 1 c.matrix.versions
  rw [expand, expand, valid, jobs]

namespace MatrixRunner

variable {id id' : ReporterId} {reporter : Reporter} {stamps : Nat → Stamp}

theorem standard_inStep (discreet : reporter.IsDiscreet name) :
    InStep name host stamps (standard c id reporter) (standard (c.withId key) id' reporter) where
  expand := Config.expand_withId
  digest := rfl
  parallelism := rfl
  program _ :=
    JobPipeline.IsDiscreet.run (JobPipeline.standard_isDiscreet c discreet) ⟨rfl, rfl⟩ id'
  lateCall _ := Reporter.closeSession_alike discreet

/-- The plan of a matrix shows the identifier nowhere but where it is kept. -/
theorem plan_withId (cwd : Path) :
    (standard (c.withId key) id' reporter).plan cwd =
      ((standard c id reporter).plan cwd).map fun jobs =>
        jobs.map fun (ctx, steps) => (ctx.withId id', steps) := by
  rw [plan, plan]
  have expand : (standard (c.withId key) id' reporter).config.expand = c.expand :=
    Config.expand_withId
  rw [expand]
  change c.expand.map _ = (c.expand.map _).map _
  cases c.expand with
  | error e => rfl
  | ok jobs =>
    simp only [Except.map, List.map_map]
    rfl

end MatrixRunner
end CoverageMatrix
