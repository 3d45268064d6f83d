import CoverageMatrix.Proofs.Matrix.Closing
import CoverageMatrix.Proofs.Matrix.Progress
import CoverageMatrix.Proofs.Phase.Standard
import CoverageMatrix.Proofs.Reporting.Helper

/-!
# When a whole run breaks down

A job that breaks down leaves the others alone, but the call that closes its session for it is made
outside of any job. If the command runner breaks down there too, the whole run does, and no job gets
a result.
-/
namespace CoverageMatrix.MatrixRunner

variable {m : MatrixRunner} {host : Host} {stamps : Nat → Stamp} {w v u : World} {t : Trace}
  {endings : List JobEnding} {job : Job} {r : Option JobResult} {rs : List JobResult}

/-! ## Any orderly matrix -/

theorem Concluded.isSome_iff (h : m.Concluded host stamps w t endings v)
    (steady : m.pipeline.IsSteady m.reporter) (mem : (job, r) ∈ endings) :
    r.isSome ↔ (t.of job.id).isBroken = false := by
  obtain ⟨e, course, rfl⟩ := h.course mem
  rw [Option.isSome_map]
  exact course.isSome_iff steady

/-- When the turn of a job comes to be settled, its closing step has begun exactly if the job itself
has begun it. -/
theorem Concluded.hasBegunClosing_iff (h : m.Concluded host stamps w t endings v)
    (orderly : m.pipeline.Orderly m.reporter) (valid : m.config.validate = .ok ())
    {before after : List JobEnding} (split : endings = before ++ (job, r) :: after)
    (settled : m.settle host stamps before v = (some rs, u)) :
    u.hasBegunClosing job.id = true ↔ .closing job.id ∈ (t.of job.id).notes := by
  have nodup := h.nodup_ids valid
  rw [split, List.map_append, List.map_cons] at nodup
  obtain ⟨distinct, -, apart⟩ := List.nodup_append.mp nodup
  have others : ∀ e ∈ before, e.1.id ≠ job.id := fun e mem =>
    apart _ (List.mem_map_of_mem mem) _ List.mem_cons_self
  -- the settlement of other jobs closes no session of this one
  have journal := (settle_closings orderly.closed distinct settled).1 job.id others
  have fresh : Note.closing job.id ∉ closingsOf job.id w.renewed.journal := by
    rw [← World.hasBegunClosing_iff, World.hasBegunClosing_renewed]
    exact Bool.false_ne_true
  rw [World.hasBegunClosing_iff, journal, h.closingsOf_journal orderly, List.mem_append,
    or_iff_right fresh]
  simp [closingsOf]

/-- What the jobs of a matrix come to: a job for which the command runner broke down gets the result
of a crash, and every other job has its own. -/
def Reports (m : MatrixRunner) (cwd : Path) (stamps : Nat → Stamp) (t : Trace) (job : Job)
    (result : JobResult) : Prop :=
  result.job = job ∧
    if (t.of job.id).isBroken then ∃ why, result = crashedResult stamps job why
    else (m.program cwd stamps job).Follows (t.of job.id) (some result)

theorem Concluded.reports (h : m.Concluded host stamps w t endings v)
    (steady : m.pipeline.IsSteady m.reporter)
    (settled : m.settle host stamps endings v = (some rs, u)) :
    List.Forall₂ (m.Reports host.cwd.path stamps t) m.config.jobs rs := by
  refine h.settled settled fun job ending result mem settledAs => ?_
  have ended := h.isSome_iff steady mem
  rcases settledAs with rfl | ⟨rfl, why, rfl⟩
  · obtain ⟨e, -, eq⟩ := h.course mem
    obtain ⟨⟨history, findings⟩, -, rfl⟩ := Option.map_eq_some_iff.mp eq.symm
    refine ⟨rfl, ?_⟩
    rw [ended.mp rfl, if_neg Bool.false_ne_true]
    exact h.follows job _ mem
  · refine ⟨rfl, ?_⟩
    have broken : (t.of job.id).isBroken = true := by simpa using ended
    rw [broken, if_pos rfl]
    exact ⟨why, rfl⟩

/-! ## A matrix that reports through the helper -/

/-- The call that closes the session of a job for it breaks down. The job had not begun to close the
session itself, its copy of the helper is in place, and the command runner breaks down when it is to
run that. -/
structure BreaksDownLate (m : MatrixRunner) (h : Helper) (host : Host) (job : Job) (t : Trace)
    (u : World) : Prop where
  unclosed : .closing job.id ∉ (t.of job.id).notes
  acquired : .acquired job.id ∈ u.journal
  call : ∃ i, h.invocation ["after-build", "--exit-code", toString setupFailureCode] m.reporterId
      (m.contextFor host.cwd.path job).scope = .ok i ∧
    (host.command i (u.noted (.session (.closing m.reporterId
      (m.contextFor host.cwd.path job).scope setupFailureCode)))).outcome = none

theorem Concluded.breaksDownLate_iff {helper : Helper} (h : m.Concluded host stamps w t endings v)
    (through : m.reporter = helper.reporter) (orderly : m.pipeline.Orderly m.reporter)
    (valid : m.config.validate = .ok ()) {before after : List JobEnding}
    (split : endings = before ++ (job, r) :: after)
    (settled : m.settle host stamps before v = (some rs, u)) :
    (m.recover host stamps job u).1 = none ↔ m.BreaksDownLate helper host job t u := by
  have begun := h.hasBegunClosing_iff orderly valid split settled
  rw [recover_eq_none_iff, ← Bool.not_eq_true, begun, lateCall, through,
    Helper.run_closeSession_eq_none_iff]
  constructor
  · rintro ⟨unclosed, acquired, call⟩
    exact ⟨unclosed, acquired, call⟩
  · intro late
    exact ⟨late.unclosed, late.acquired, late.call⟩

end CoverageMatrix.MatrixRunner
