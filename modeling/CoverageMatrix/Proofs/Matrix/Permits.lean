import CoverageMatrix.Proofs.Matrix.Digest
import CoverageMatrix.Proofs.Matrix.Progress
import CoverageMatrix.Proofs.Matrix.Settling
import CoverageMatrix.Proofs.Phase.Standard

/-!
# Matrices in which nothing breaks down

If none of the phases of a valid matrix breaks down, its jobs all come to results of their own, and
the matrix has a result, unless more jobs are allowed at a time than can be. Checking a configuration
does not look at that bound.
-/
namespace CoverageMatrix

variable {host : Host}

/-! ## One job -/

namespace JobPipeline

variable {ctx : JobContext} {stamp : Stamp}

theorem runPhases_returns {h : History} {f : Findings} {phases : List Phase}
    (each : ∀ phase ∈ phases, ∀ c : JobContext, c.reporter = ctx.reporter →
      (phase.run c).Returns host) :
    (runPhases stamp (h.progress ctx stamp f) phases).Returns host := by
  induction phases generalizing h f with
  | nil => trivial
  | cons phase phases ih =>
    obtain ⟨first, others⟩ := List.forall_mem_cons.mp each
    cases hk : h.admits phase.kind with
    | false =>
      rw [runPhases_of_not_admits hk]
      exact ih others
    | true =>
      rw [runPhases_of_admits hk]
      exact (first (h.contextOf ctx f) rfl).bind fun _ => ih others

theorem run_returns {p : JobPipeline} (fresh : ctx.resultCode = none ∧ ctx.aborted = false)
    (each : ∀ phase ∈ p.phases, ∀ c : JobContext, c.reporter = ctx.reporter →
      (phase.run c).Returns host) : (p.run ctx stamp).Returns host := by
  rw [run, Program.bind_eq, JobProgress.start_eq fresh.1 fresh.2]
  exact (runPhases_returns each).bind fun _ => trivial

end JobPipeline

/-- With its reporter and in given surroundings, none of the phases of a matrix breaks down. -/
def MatrixRunner.IsUnfailing (m : MatrixRunner) (host : Host) : Prop :=
  ∀ phase ∈ m.pipeline.phases, ∀ ctx : JobContext, ctx.reporter = m.reporter →
    (phase.run ctx).Returns host

/-- A job that has not broken down and is not going to. -/
def Task.IsSafe (host : Host) : Task → Prop
  | waiting p => p.Returns host
  | running p => p.Returns host
  | ended r => r.isSome

theorem Task.Moves.isSafe {a b : Task} {u : Transcript} {w w' : World} (m : a.Moves host w u b w')
    (safe : a.IsSafe host) : b.IsSafe host := by
  cases m with
  | finish r => rfl
  | breakDown => exact safe.elim
  | answered h =>
    obtain ⟨x, answered, rest⟩ := safe w
    rw [h] at answered
    cases answered
    exact rest
  | unanswered h =>
    obtain ⟨x, answered, -⟩ := safe w
    rw [h] at answered
    cases answered

/-! ## All jobs -/

namespace Board

def IsSafe (host : Host) (b : Board) : Prop :=
  ∀ job task, (job, task) ∈ b.tasks → task.IsSafe host

variable {permits : Nat} {a b : Board} {t : Trace}

theorem Step.isSafe (s : a.Step host permits t b) (safe : a.IsSafe host) : b.IsSafe host := by
  cases s with
  | @enter before after job p w _ =>
    intro other task mem
    rcases mem_middle_iff.mp mem with eq | mem
    · cases eq
      exact safe job (.waiting p) (by simp)
    · exact safe other task (mem_middle_iff.mpr (.inr mem))
  | @move before after job task task' u w w' m =>
    intro other task'' mem
    rcases mem_middle_iff.mp mem with eq | mem
    · cases eq
      exact m.isSafe (safe job task (by simp))
    · exact safe other task'' (mem_middle_iff.mpr (.inr mem))

theorem Reaches.isSafe (r : a.Reaches host permits t b) (safe : a.IsSafe host) : b.IsSafe host := by
  induction r with
  | refl => exact safe
  | tail _ s ih => exact s.isSafe ih

end Board

namespace MatrixRunner

variable {m : MatrixRunner} {stamps : Nat → Stamp} {w v : World} {t : Trace}

theorem IsUnfailing.opening (unfailing : m.IsUnfailing host) (jobs : List Job) (w : World) :
    (m.opening host stamps jobs w).IsSafe host := by
  intro job task mem
  obtain ⟨job, -, eq⟩ := List.mem_map.mp mem
  cases eq
  exact JobPipeline.run_returns ⟨rfl, rfl⟩ unfailing

theorem settle_of_own {endings : List JobEnding} (own : ∀ e ∈ endings, e.2.isSome) (v : World) :
    ∃ rs, m.settle host stamps endings v = (some rs, v) := by
  induction endings with
  | nil => exact ⟨[], rfl⟩
  | cons e rest ih =>
    obtain ⟨first, others⟩ := List.forall_mem_cons.mp own
    obtain ⟨r, result⟩ := Option.isSome_iff_exists.mp first
    obtain ⟨rs, settled⟩ := ih others
    refine ⟨r :: rs, ?_⟩
    rw [settle_cons, settleJob, result]
    simp [settled]

/-- Where nothing breaks down, each job has the result that its own program came to. -/
theorem Ends.own_results {out : Option (Except PipelineError MatrixResult)}
    (ends : m.Ends host stamps w t out v) (valid : m.config.validate = .ok ())
    (unfailing : m.IsUnfailing host) (narrow : m.config.matrix.parallelism ≤ permitLimit) :
    ∃ r, out = some (.ok r) ∧ List.Forall₂ (fun job result =>
      (m.program host.cwd.path stamps job).Follows (t.of job.id) (some result)) m.config.jobs
        r.jobs := by
  cases ends with
  | refused h => exact absurd h (Config.expand_ne_error valid _)
  | unpermitted _ wide => exact absurd narrow (Nat.not_le_of_lt wide)
  | @settled jobs t b endings h _ reached ended =>
    have safe := reached.isSafe (unfailing.opening jobs w.renewed)
    have own : ∀ e ∈ endings, e.2.isSome := by
      intro e mem
      refine safe e.1 (.ended e.2) ?_
      rw [Board.endings_eq_some_iff.mp ended]
      exact List.mem_map_of_mem mem
    have concluded := concluded_of_reaches h reached ended
    obtain ⟨rs, settled⟩ := @settle_of_own _ m stamps _ own b.world
    rw [settled]
    refine ⟨m.resultOf stamps rs, rfl, concluded.settled settled ?_⟩
    rintro job ending result mem (rfl | ⟨rfl, -⟩)
    · exact concluded.follows job _ mem
    · cases own _ mem

/-- The jobs of a valid configuration can be named for short, and if no phase breaks down, they all
come to results of their own, whatever the order in which they take their steps, and every schedule
comes to such an end. The one thing that validity leaves open is how many jobs may run at a time: a
matrix that asks for too many breaks down before its first job begins. -/
theorem fails_iff_unpermitted (m : MatrixRunner) (host : Host) (stamps : Nat → Stamp) (w : World)
    (valid : m.config.validate = .ok ()) (unfailing : m.IsUnfailing host) :
    (∀ job ∈ m.config.jobs, ∃ short, job.shortDigest? = some short) ∧
    ((m.run host stamps w).1 = none ↔ permitLimit < m.config.matrix.parallelism) ∧
    (∀ t out w', m.Ends host stamps w t out w' →
      (out = none ↔ permitLimit < m.config.matrix.parallelism) ∧
      (m.config.matrix.parallelism ≤ permitLimit → ∃ r, out = some (.ok r) ∧
        List.Forall₂ (fun job result =>
          (m.program host.cwd.path stamps job).Follows (t.of job.id) (some result)) m.config.jobs
            r.jobs)) ∧
    (WellFounded fun b a => ∃ u, Board.Step host m.config.matrix.parallelism a u b) ∧
    (m.config.matrix.parallelism ≤ permitLimit → ∀ t b,
      (m.opening host stamps m.config.jobs w.renewed).Reaches host m.config.matrix.parallelism t b →
        ∃ u out w', m.Ends host stamps w (t ++ u) out w') := by
  have unpermitted (t : Trace) (out : Option (Except PipelineError MatrixResult)) (w' : World)
      (ends : m.Ends host stamps w t out w') :
      out = none ↔ permitLimit < m.config.matrix.parallelism := by
    constructor
    · rintro rfl
      by_contra narrow
      obtain ⟨r, result, -⟩ := ends.own_results valid unfailing (Nat.le_of_not_lt narrow)
      cases result
    · intro wide
      cases ends with
      | refused h => exact absurd h (Config.expand_ne_error valid _)
      | unpermitted => rfl
      | settled _ narrow => exact absurd narrow (Nat.not_le_of_lt wide)
  obtain ⟨t, ran⟩ := m.ends_run host stamps w (Config.nodup_versions_of_valid valid).2
  exact ⟨fun job mem => ⟨_, Config.shortDigest?_of_mem_jobs mem⟩, unpermitted t _ _ ran,
    fun t out w' ends => ⟨unpermitted t out w' ends, ends.own_results valid unfailing⟩,
    Board.step_wellFounded host _, fun narrow t b => exists_ends valid narrow⟩

/-- A matrix that asks for one job more at a time than can be. -/
def crowded : Config where
  matrix := { parallelism := permitLimit + 1 }

/-- Surroundings in which every command ends with zero. -/
def calmHost : Host where
  cwd := ["work"]
  command _ w := ⟨some (.ok ⟨0, "", "", 0⟩), w.files⟩
  service _ _ := .ok ()
  download _ _ := .ok .empty

theorem fails_iff_unpermitted_crowded :
    let m := standard crowded ⟨"token"⟩ .noop
    let stamps : Nat → Stamp := fun _ => ⟨"run", "now"⟩
    crowded.validate = .ok () ∧ m.IsUnfailing calmHost ∧
      (m.run calmHost stamps ⟨⟨[]⟩, []⟩).1 = none := by
  intro m stamps
  have valid : crowded.validate = .ok () := rfl
  have answers : calmHost.Answers := fun _ _ => ⟨_, rfl⟩
  have steady : m.pipeline.IsSteady m.reporter :=
    JobPipeline.standard_steady crowded (fun _ _ => trivial) fun _ _ _ => trivial
  have unfailing : m.IsUnfailing calmHost := fun phase mem ctx same =>
    (steady phase mem ctx same).returns answers
  obtain ⟨-, fails, -⟩ := fails_iff_unpermitted m calmHost stamps ⟨⟨[]⟩, []⟩ valid unfailing
  exact ⟨valid, unfailing, fails.mpr (by decide)⟩

end MatrixRunner
end CoverageMatrix
