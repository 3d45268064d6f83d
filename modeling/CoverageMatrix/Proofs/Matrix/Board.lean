import CoverageMatrix.Matrix.Schedule
import CoverageMatrix.Proofs.Program.Transcript
import Mathlib.Data.List.Nodup

/-!
# What holds under every schedule

In whatever order jobs take their steps, the exchanges of each of them are a transcript of its own
program, and the journal grows by the notes of these exchanges. The invariant is `Board.Consistent`;
`Board.Reaches.consistent` carries it along a schedule.
-/
namespace CoverageMatrix

/-! ## Parts of a trace -/

namespace Trace

@[simp] theorem of_nil (job : JobId) : of [] job = [] := rfl

@[simp] theorem of_append (t u : Trace) (job : JobId) : of (t ++ u) job = of t job ++ of u job := by
  simp [of]

@[simp] theorem of_ofJob_self (job : JobId) (t : Transcript) : (ofJob job t).of job = t := by
  simp [of, ofJob, List.filter_map, Function.comp_def]

theorem of_ofJob_of_ne {job other : JobId} (h : job ≠ other) (t : Transcript) :
    (ofJob job t).of other = [] := by
  simp [of, ofJob, List.filter_map, Function.comp_def, h]

@[simp] theorem notes_nil : notes [] = [] := rfl

@[simp] theorem notes_append (t u : Trace) : notes (t ++ u) = notes t ++ notes u := by
  simp [notes]

@[simp] theorem notes_ofJob (job : JobId) (t : Transcript) : (ofJob job t).notes = t.notes := by
  simp [notes, ofJob, Function.comp_def]

end Trace

/-! ## One job -/

namespace Task

/-- How far a job has got agrees with its program and the exchanges it has made. -/
inductive Agrees (p : Program JobResult) : Transcript → Task → Prop
  | waiting {t : Transcript} (h : t = []) : Agrees p t (.waiting p)
  | running {t : Transcript} {q : Program JobResult}
    (h : ∀ u o, q.Follows u o → p.Follows (t ++ u) o) : Agrees p t (.running q)
  | ended {t : Transcript} {r : Option JobResult} (h : p.Follows t r) : Agrees p t (.ended r)

variable {host : Host} {p : Program JobResult} {t u : Transcript} {a b : Task} {w w' : World}

theorem Agrees.enter {q : Program JobResult} (h : Agrees p t (.waiting q)) :
    Agrees p t (.running q) := by
  cases h with
  | waiting h =>
    subst h
    exact .running fun _ _ run => run

theorem Agrees.move (h : Agrees p t a) (m : a.Moves host w u b w') : Agrees p (t ++ u) b := by
  cases m with
  | finish r =>
    cases h with
    | running rest => exact .ended (rest _ _ (.done r))
  | breakDown =>
    cases h with
    | running rest => exact .ended (rest _ _ .crash)
  | answered =>
    cases h with
    | running rest =>
      refine .running fun v o run => ?_
      rw [List.append_assoc]
      exact rest _ _ (.answered run)
  | unanswered g =>
    obtain ⟨i, rfl⟩ := Host.eq_command_of_answer_eq_none g
    cases h with
    | running rest => exact .ended (rest _ _ .unanswered)

theorem Moves.journal_eq (m : a.Moves host w u b w') : w'.journal = w.journal ++ u.notes := by
  cases m with
  | finish | breakDown => simp
  | @answered r _ _ _ _ g | @unanswered r _ _ _ g =>
    have journal := host.journal_answer w r
    rw [g] at journal
    simpa using journal

end Task

/-! ## All jobs -/

namespace Board

/-- A board holds the jobs, each as far as its part of the trace shows, and the world in which the
trace has left its notes. -/
structure Consistent (programs : Job → Program JobResult) (jobs : List Job) (w : World) (t : Trace)
    (b : Board) : Prop where
  jobs_eq : b.tasks.map Prod.fst = jobs
  agrees : ∀ job task, (job, task) ∈ b.tasks → task.Agrees (programs job) (t.of job.id)
  named : ∀ s ∈ t, ∃ job ∈ jobs, job.id = s.1
  journal : b.world.journal = w.journal ++ t.notes

variable {host : Host} {permits : Nat} {programs : Job → Program JobResult} {jobs : List Job}
  {w : World} {t u : Trace} {a b : Board}

theorem id_ne_of_mem_others {before after : List (Job × Task)} {job other : Job} {task task' : Task}
    (distinct : ((before ++ (job, task) :: after).map fun t => t.1.id).Nodup)
    (mem : (other, task') ∈ before ++ after) : job.id ≠ other.id := by
  rw [List.map_append, List.map_cons, List.nodup_middle, List.nodup_cons, ← List.map_append] at distinct
  intro eq
  exact distinct.1 (List.mem_map.mpr ⟨(other, task'), mem, eq.symm⟩)

theorem mem_middle_iff {before after : List (Job × Task)} {x y : Job × Task} :
    y ∈ before ++ x :: after ↔ y = x ∨ y ∈ before ++ after := by
  simp only [List.mem_append, List.mem_cons]
  exact or_left_comm

theorem Consistent.step (distinct : (jobs.map (·.id)).Nodup) (h : a.Consistent programs jobs w t)
    (s : a.Step host permits u b) : b.Consistent programs jobs w (t ++ u) := by
  obtain ⟨jobs_eq, agrees, named, journal⟩ := h
  cases s with
  | @enter before after job p v _ =>
    rw [List.append_nil]
    refine ⟨by simpa using jobs_eq, fun other task mem => ?_, named, journal⟩
    rcases mem_middle_iff.mp mem with eq | mem
    · cases eq
      exact (agrees job (.waiting p) (by simp)).enter
    · exact agrees other task (mem_middle_iff.mpr (.inr mem))
  | @move before after job task task' u' v v' m =>
    have jobs_eq : (before ++ (job, task) :: after).map Prod.fst = jobs := jobs_eq
    refine ⟨by simpa using jobs_eq, fun other task'' mem => ?_, ?_, ?_⟩
    · rcases mem_middle_iff.mp mem with eq | mem
      · cases eq
        rw [Trace.of_append, Trace.of_ofJob_self]
        exact (agrees job task (by simp)).move m
      · have distinct : ((before ++ (job, task) :: after).map fun t => t.1.id).Nodup := by
          rw [← jobs_eq, List.map_map] at distinct
          exact distinct
        rw [Trace.of_append, Trace.of_ofJob_of_ne (id_ne_of_mem_others distinct mem),
          List.append_nil]
        exact agrees other task'' (mem_middle_iff.mpr (.inr mem))
    · intro s mem
      rcases List.mem_append.mp mem with mem | mem
      · exact named s mem
      · obtain ⟨e, -, rfl⟩ := List.mem_map.mp mem
        exact ⟨job, by simp [← jobs_eq], rfl⟩
    · rw [Trace.notes_append, Trace.notes_ofJob, ← List.append_assoc, ← journal]
      exact m.journal_eq

theorem Reaches.consistent (distinct : (jobs.map (·.id)).Nodup)
    (start : a.Consistent programs jobs w []) (r : a.Reaches host permits t b) :
    b.Consistent programs jobs w t := by
  induction r with
  | refl => exact start
  | tail _ s ih => exact ih.step distinct s

/-! ## The end of a schedule -/

theorem endings_eq_some_iff {endings : List JobEnding} :
    b.endings = some endings ↔ b.tasks = MatrixRunner.closing endings := by
  constructor
  · intro h
    obtain ⟨tasks, v⟩ := b
    simp only [Board.endings] at h ⊢
    induction tasks generalizing endings with
    | nil =>
      cases h
      rfl
    | cons x rest ih =>
      obtain ⟨job, task⟩ := x
      simp only [List.mapM_cons] at h
      cases task with
      | waiting p | running p => cases h
      | ended r =>
        cases hr : rest.mapM fun (x : Job × Task) => x.2.ending.map (Prod.mk x.1) with
        | none => simp [hr] at h
        | some es =>
          obtain rfl : (job, r) :: es = endings := by simpa [hr] using h
          rw [ih hr]
          rfl
  · intro h
    obtain ⟨tasks, v⟩ := b
    cases h
    exact MatrixRunner.endings_closing endings v

end Board
end CoverageMatrix
