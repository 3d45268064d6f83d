import CoverageMatrix.Matrix.Run
import CoverageMatrix.Program.Transcript

/-!
Schedules of a matrix. All jobs are on a board; a job waits, runs or has ended, and at any time one
waiting job may begin or one running job may do its next step. What the jobs ask on the way, and the
answers, make the trace of the schedule. `MatrixRunner.Ends` says how a matrix can end under any
schedule; `MatrixRunner.ends_run` says that running the jobs one after the other is one of them.
-/
namespace CoverageMatrix

/-- The exchanges of the jobs of a matrix, in order, each with the job that made it. -/
abbrev Trace := List (JobId × Exchange)

namespace Trace

def of (t : Trace) (job : JobId) : Transcript :=
  (t.filter fun s => s.1 = job).map Prod.snd

/-- The exchanges of one job as part of a trace. -/
def ofJob (job : JobId) (t : Transcript) : Trace :=
  t.map (Prod.mk job)

/-- The notes that the exchanges left in the journal. -/
def notes (t : Trace) : List Note :=
  Transcript.notes (t.map Prod.snd)

end Trace

inductive Task where
  | waiting (p : Program JobResult)
  /-- The job has begun, and this is left to do. -/
  | running (p : Program JobResult)
  /-- The job has ended: with its result, or by breaking down. -/
  | ended (r : Option JobResult)

namespace Task

/-- Whether the job has begun and has not ended. -/
def isRunning : Task → Bool
  | running _ => true
  | _ => false

def ending : Task → Option (Option JobResult)
  | ended r => some r
  | _ => none

@[simp] theorem isRunning_waiting (p : Program JobResult) : (waiting p).isRunning = false := rfl

@[simp] theorem isRunning_running (p : Program JobResult) : (running p).isRunning = true := rfl

@[simp] theorem isRunning_ended (r : Option JobResult) : (ended r).isRunning = false := rfl

@[simp] theorem ending_ended (r : Option JobResult) : (ended r).ending = some r := rfl

/-- One step of a running job, what it asks in it, and what it does to the world. -/
inductive Moves (host : Host) : Task → World → Transcript → Task → World → Prop
  | finish (r : JobResult) (w : World) :
    Moves host (running (.done r)) w [] (ended (some r)) w
  /-- The job panics, which is taken to unwind into the end of its own task. -/
  | breakDown (w : World) :
    Moves host (running .crash) w [] (ended none) w
  | answered {r : Request} {next : r.Answer → Program JobResult} {x : r.Answer} {w w' : World}
    (h : host.answer w r = (some x, w')) :
    Moves host (running (.ask r next)) w [⟨r, some x⟩] (running (next x)) w'
  | unanswered {r : Request} {next : r.Answer → Program JobResult} {w w' : World}
    (h : host.answer w r = (none, w')) :
    Moves host (running (.ask r next)) w [⟨r, none⟩] (ended none) w'

theorem Moves.isRunning {host : Host} {t t' : Task} {u : Transcript} {w w' : World}
    (h : Moves host t w u t' w') : t.isRunning = true := by
  cases h <;> rfl

end Task

/-- The jobs of a matrix, in its order, and the world they share. -/
structure Board where
  tasks : List (Job × Task)
  world : World

namespace Board

def runningCount (b : Board) : Nat :=
  b.tasks.countP fun t => t.2.isRunning

/-- The endings of all jobs, once every job has ended. -/
def endings (b : Board) : Option (List JobEnding) :=
  b.tasks.mapM fun (job, t) => t.ending.map (Prod.mk job)

/-- One event of a schedule. -/
inductive Step (host : Host) (permits : Nat) : Board → Trace → Board → Prop
  /-- A waiting job begins to run, if fewer jobs than allowed are running. -/
  | enter {before after : List (Job × Task)} {job : Job} {p : Program JobResult} {w : World}
    (h : runningCount ⟨before ++ (job, .waiting p) :: after, w⟩ < permits) :
    Step host permits ⟨before ++ (job, .waiting p) :: after, w⟩ []
      ⟨before ++ (job, .running p) :: after, w⟩
  /-- A running job does its next step. -/
  | move {before after : List (Job × Task)} {job : Job} {t t' : Task} {u : Transcript}
    {w w' : World} (h : t.Moves host w u t' w') :
    Step host permits ⟨before ++ (job, t) :: after, w⟩ (Trace.ofJob job.id u)
      ⟨before ++ (job, t') :: after, w'⟩

/-- A board that a schedule leads to, and the trace of the schedule. -/
inductive Reaches (host : Host) (permits : Nat) (a : Board) : Trace → Board → Prop
  | refl : Reaches host permits a [] a
  | tail {b c : Board} {t u : Trace} (h : Reaches host permits a t b)
    (s : Step host permits b u c) : Reaches host permits a (t ++ u) c

variable {host : Host} {permits : Nat}

theorem Reaches.trans {a b c : Board} {t u : Trace} (h : Reaches host permits a t b)
    (g : Reaches host permits b u c) : Reaches host permits a (t ++ u) c := by
  induction g with
  | refl => exact (List.append_nil t).symm ▸ h
  | tail _ s ih => exact List.append_assoc .. ▸ ih.tail s

theorem Reaches.single {a b : Board} {t : Trace} (s : Step host permits a t b) :
    Reaches host permits a t b :=
  .tail .refl s

/-- The bound on the number of running jobs is kept by every event. -/
theorem Step.runningCount_le {a b : Board} {t : Trace} (s : Step host permits a t b)
    (h : a.runningCount ≤ permits) : b.runningCount ≤ permits := by
  cases s with
  | enter g =>
    simp only [runningCount, List.countP_append, List.countP_cons, Task.isRunning_waiting,
      Task.isRunning_running] at g ⊢
    grind
  | move m =>
    have hm := m.isRunning
    simp only [runningCount, List.countP_append, List.countP_cons, hm] at h ⊢
    grind

theorem Reaches.runningCount_le {a b : Board} {t : Trace} (r : Reaches host permits a t b)
    (h : a.runningCount ≤ permits) : b.runningCount ≤ permits := by
  induction r with
  | refl => exact h
  | tail _ s ih => exact s.runningCount_le ih

/-- A running job that is left alone comes to the end that its program has when run alone. -/
theorem reaches_run (before after : List (Job × Task)) (job : Job) (p : Program JobResult)
    (w : World) :
    ∃ t, Reaches host permits ⟨before ++ (job, .running p) :: after, w⟩ t
      ⟨before ++ (job, .ended (p.run host w).1) :: after, (p.run host w).2⟩ := by
  induction p generalizing w with
  | done r => exact ⟨_, .single (.move (.finish r w))⟩
  | crash => exact ⟨_, .single (.move (.breakDown w))⟩
  | ask r next ih =>
    rw [Program.run]
    rcases h : host.answer w r with ⟨_ | x, w'⟩
    · exact ⟨_, .single (.move (.unanswered h))⟩
    · obtain ⟨t, rest⟩ := ih x w'
      exact ⟨_, (Reaches.single (.move (.answered h))).trans rest⟩

end Board

namespace MatrixRunner

def opening (m : MatrixRunner) (host : Host) (stamps : Nat → Stamp) (jobs : List Job) (w : World) :
    Board :=
  ⟨jobs.map fun job => (job, .waiting (m.program host.cwd.path stamps job)), w⟩

/-- How a matrix can end: the trace of its jobs, what it returns, and the world it leaves. -/
inductive Ends (m : MatrixRunner) (host : Host) (stamps : Nat → Stamp) (w : World) :
    Trace → Option (Except PipelineError MatrixResult) → World → Prop
  | refused {e : PipelineError} (h : m.config.expand = .error e) :
    Ends m host stamps w [] (some (.error e)) w
  /-- More jobs are allowed at a time than can be. -/
  | unpermitted {jobs : List Job} (h : m.config.expand = .ok jobs)
    (wide : permitLimit < m.config.matrix.parallelism) : Ends m host stamps w [] none w
  /-- All jobs came to their end, and the sessions of those that broke down were closed. -/
  | settled {jobs : List Job} {t : Trace} {b : Board} {endings : List JobEnding}
    (h : m.config.expand = .ok jobs)
    (narrow : m.config.matrix.parallelism ≤ permitLimit)
    (reached :
      (m.opening host stamps jobs w.renewed).Reaches host m.config.matrix.parallelism t b)
    (ended : b.endings = some endings) :
    Ends m host stamps w t
      ((m.settle host stamps endings b.world).1.map fun rs => .ok (m.resultOf stamps rs))
      (m.settle host stamps endings b.world).2

/-- The board on which jobs have ended. -/
def closing (endings : List JobEnding) : List (Job × Task) :=
  endings.map fun e => (e.1, .ended e.2)

theorem endings_closing (endings : List JobEnding) (w : World) :
    (Board.mk (closing endings) w).endings = some endings := by
  simp only [Board.endings, closing]
  induction endings with
  | nil => rfl
  | cons e rest ih => simp only [List.map_cons, List.mapM_cons, ih]; rfl

theorem runningCount_closing (endings : List JobEnding) :
    (closing endings).countP (fun t => t.2.isRunning) = 0 := by
  simp [closing, List.countP_eq_zero]

theorem runningCount_opening (m : MatrixRunner) (host : Host) (stamps : Nat → Stamp)
    (jobs : List Job) (w : World) : (m.opening host stamps jobs w).runningCount = 0 := by
  simp [Board.runningCount, opening, List.countP_eq_zero]

/-- Running jobs one after the other is a schedule, if a job may run at all. -/
theorem reaches_runJobs (m : MatrixRunner) (host : Host) (stamps : Nat → Stamp) {permits : Nat}
    (hp : 0 < permits) (gone : List JobEnding) (jobs : List Job) (w : World) :
    ∃ t, Board.Reaches host permits ⟨closing gone ++ (m.opening host stamps jobs w).tasks, w⟩ t
      ⟨closing (gone ++ (m.runJobs host stamps jobs w).1), (m.runJobs host stamps jobs w).2⟩ := by
  induction jobs generalizing gone w with
  | nil => exact ⟨[], by simpa [opening, runJobs] using Board.Reaches.refl⟩
  | cons job rest ih =>
    have begun : Board.Step host permits
        ⟨closing gone ++ (m.opening host stamps (job :: rest) w).tasks, w⟩ []
        ⟨closing gone ++ (job, .running (m.program host.cwd.path stamps job)) ::
          (m.opening host stamps rest w).tasks, w⟩ := by
      refine .enter ?_
      have waiting : (m.opening host stamps (job :: rest) w).runningCount = 0 :=
        m.runningCount_opening host stamps (job :: rest) w
      have all : Board.runningCount
          ⟨closing gone ++ (m.opening host stamps (job :: rest) w).tasks, w⟩ = 0 := by
        simpa only [Board.runningCount, List.countP_append, runningCount_closing, Nat.zero_add]
          using waiting
      exact all ▸ hp
    obtain ⟨t, ran⟩ := @Board.reaches_run host permits (closing gone)
      (m.opening host stamps rest w).tasks job (m.program host.cwd.path stamps job) w
    obtain ⟨u, next⟩ := ih (gone ++ [(job, ((m.program host.cwd.path stamps job).run host w).1)])
      ((m.program host.cwd.path stamps job).run host w).2
    refine ⟨_, (Board.Reaches.single begun).trans (ran.trans (u := u) ?_)⟩
    simpa [runJobs, closing, opening] using next

/-- Running a matrix is one of the ways in which it can end, if a job may run at all. -/
theorem ends_run (m : MatrixRunner) (host : Host) (stamps : Nat → Stamp) (w : World)
    (h : 0 < m.config.matrix.parallelism) :
    ∃ t, m.Ends host stamps w t (m.run host stamps w).1 (m.run host stamps w).2 := by
  unfold run
  split
  · next e he => exact ⟨[], .refused he⟩
  · next jobs hj =>
    split
    · next wide => exact ⟨[], .unpermitted hj wide⟩
    · next narrow =>
      obtain ⟨t, reached⟩ := m.reaches_runJobs host stamps h [] jobs w.renewed
      exact ⟨t, .settled hj (Nat.le_of_not_lt narrow)
        (b := ⟨closing (m.runJobs host stamps jobs w.renewed).1,
          (m.runJobs host stamps jobs w.renewed).2⟩) reached (endings_closing _ _)⟩

end MatrixRunner
end CoverageMatrix
