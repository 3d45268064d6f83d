import CoverageMatrix.Proofs.Matrix.Board
import CoverageMatrix.Proofs.Matrix.Jobs

/-!
# Every schedule ends

No schedule goes on for ever (`Board.step_wellFounded`), and as long as jobs may run at all, there
is another event on a board on which some job has not ended (`Board.exists_step`). So all jobs come
to their ends, whatever has happened before (`Board.exists_reaches_end`).
-/
namespace CoverageMatrix

variable {host : Host} {permits : Nat}

/-! ## One job -/

namespace Task

/-- A job gets from one point to another by one event. -/
def Leads (host : Host) (a b : Task) : Prop :=
  (∃ p, a = .waiting p ∧ b = .running p) ∨ ∃ w u w', a.Moves host w u b w'

theorem acc_ended (r : Option JobResult) : Acc (fun b a => Leads host a b) (.ended r) := by
  constructor
  rintro b (⟨p, h, -⟩ | ⟨w, u, w', m⟩)
  · cases h
  · cases m

theorem acc_running (p : Program JobResult) : Acc (fun b a => Leads host a b) (.running p) := by
  -- a job moves down its program, which is a tree without infinite branches
  induction p with
  | done r =>
    constructor
    rintro b (⟨p, h, -⟩ | ⟨w, u, w', m⟩)
    · cases h
    · cases m
      exact acc_ended _
  | crash =>
    constructor
    rintro b (⟨p, h, -⟩ | ⟨w, u, w', m⟩)
    · cases h
    · cases m
      exact acc_ended _
  | ask r next ih =>
    constructor
    rintro b (⟨p, h, -⟩ | ⟨w, u, w', m⟩)
    · cases h
    · cases m with
      | answered => exact ih _
      | unanswered => exact acc_ended _

theorem leads_acc (a : Task) : Acc (fun b a => Leads host a b) a := by
  cases a with
  | waiting p =>
    constructor
    rintro b (⟨q, h, rfl⟩ | ⟨w, u, w', m⟩)
    · exact acc_running q
    · cases m
  | running p => exact acc_running p
  | ended r => exact acc_ended r

theorem exists_moves (host : Host) (p : Program JobResult) (w : World) :
    ∃ u b w', (running p).Moves host w u b w' := by
  cases p with
  | done r => exact ⟨_, _, _, .finish r w⟩
  | crash => exact ⟨_, _, _, .breakDown w⟩
  | ask r next =>
    rcases h : host.answer w r with ⟨_ | x, w'⟩
    · exact ⟨_, _, _, .unanswered h⟩
    · exact ⟨_, _, _, .answered h⟩

end Task

/-! ## All jobs -/

namespace Board

/-- One of several jobs gets from one point to another by one event. -/
def Leads (host : Host) (a b : List (Job × Task)) : Prop :=
  ∃ before after job t t', a = before ++ (job, t) :: after ∧ b = before ++ (job, t') :: after ∧
    t.Leads host t'

theorem acc_cons {job : Job} {t : Task} {rest : List (Job × Task)}
    (ht : Acc (fun b a => Task.Leads host a b) t) (hr : Acc (fun b a => Leads host a b) rest) :
    Acc (fun b a => Leads host a b) ((job, t) :: rest) := by
  induction ht generalizing rest with
  | intro t _ first =>
    induction hr with
    | intro rest hr others =>
      constructor
      rintro b ⟨before, after, job', a, a', eq, rfl, leads⟩
      cases before with
      | nil =>
        cases eq
        exact first a' leads (.intro rest hr)
      | cons head before =>
        cases eq
        exact others _ ⟨before, after, job', a, a', rfl, rfl, leads⟩

theorem leads_acc (tasks : List (Job × Task)) : Acc (fun b a => Leads host a b) tasks := by
  induction tasks with
  | nil =>
    constructor
    rintro b ⟨before, after, job, t, t', eq, -⟩
    simp at eq
  | cons head rest ih => exact acc_cons (Task.leads_acc head.2) ih

theorem step_wellFounded (host : Host) (permits : Nat) :
    WellFounded fun b a => ∃ u, Step host permits a u b := by
  refine Subrelation.wf (r := InvImage (fun b a => Leads host a b) tasks) ?_
    (InvImage.wf tasks ⟨leads_acc⟩)
  rintro b a ⟨u, s⟩
  cases s with
  | enter => exact ⟨_, _, _, _, _, rfl, rfl, .inl ⟨_, rfl, rfl⟩⟩
  | move m => exact ⟨_, _, _, _, _, rfl, rfl, .inr ⟨_, _, _, m⟩⟩

theorem exists_endings {b : Board} (ended : ∀ job t, (job, t) ∈ b.tasks → ∃ r, t = .ended r) :
    ∃ endings, b.endings = some endings := by
  obtain ⟨tasks, w⟩ := b
  have closed : ∃ endings, tasks = MatrixRunner.closing endings := by
    induction tasks with
    | nil => exact ⟨[], rfl⟩
    | cons head rest ih =>
      obtain ⟨job, t⟩ := head
      obtain ⟨r, rfl⟩ := ended job t List.mem_cons_self
      obtain ⟨endings, rfl⟩ := ih fun job t mem => ended job t (List.mem_cons_of_mem _ mem)
      exact ⟨(job, r) :: endings, rfl⟩
  obtain ⟨endings, rfl⟩ := closed
  exact ⟨endings, MatrixRunner.endings_closing endings w⟩

/-- As long as some job has not ended, there is an event: a running job moves, or else a waiting job
begins. -/
theorem exists_step (host : Host) {b : Board} (h : 0 < permits) (unfinished : b.endings = none) :
    ∃ u c, Step host permits b u c := by
  obtain ⟨tasks, w⟩ := b
  by_cases running : ∃ job p, (job, Task.running p) ∈ tasks
  · obtain ⟨job, p, mem⟩ := running
    obtain ⟨before, after, rfl⟩ := List.append_of_mem mem
    obtain ⟨u, t, w', moves⟩ := Task.exists_moves host p w
    exact ⟨_, _, .move moves⟩
  · have waiting : ∃ job p, (job, Task.waiting p) ∈ tasks := by
      by_contra none
      obtain ⟨endings, ended⟩ := exists_endings (b := ⟨tasks, w⟩) fun job t mem => by
        cases t with
        | waiting p => exact absurd ⟨job, p, mem⟩ none
        | running p => exact absurd ⟨job, p, mem⟩ running
        | ended r => exact ⟨r, rfl⟩
      rw [unfinished] at ended
      cases ended
    obtain ⟨job, p, mem⟩ := waiting
    have idle : runningCount ⟨tasks, w⟩ = 0 := by
      refine List.countP_eq_zero.mpr fun (job, t) mem => ?_
      cases t with
      | waiting | ended => simp
      | running p => exact absurd ⟨job, p, mem⟩ running
    obtain ⟨before, after, rfl⟩ := List.append_of_mem mem
    exact ⟨_, _, .enter (idle ▸ h)⟩

theorem exists_reaches_end (host : Host) (h : 0 < permits) (b : Board) :
    ∃ t c endings, b.Reaches host permits t c ∧ c.endings = some endings := by
  induction b using (step_wellFounded host permits).induction with
  | _ b ih =>
    cases ended : b.endings with
    | some endings => exact ⟨[], b, endings, .refl, ended⟩
    | none =>
      obtain ⟨u, c, s⟩ := exists_step host h ended
      obtain ⟨t, d, endings, reaches, ended⟩ := ih c ⟨u, s⟩
      exact ⟨_, d, endings, (Reaches.single s).trans reaches, ended⟩

end Board

/-- Every schedule of a valid matrix that has begun can be carried to an end. -/
theorem MatrixRunner.exists_ends {m : MatrixRunner} {stamps : Nat → Stamp} {w : World} {t : Trace}
    {b : Board} (valid : m.config.validate = .ok ())
    (narrow : m.config.matrix.parallelism ≤ permitLimit)
    (reached : (m.opening host stamps m.config.jobs w.renewed).Reaches host
      m.config.matrix.parallelism t b) :
    ∃ u out w', m.Ends host stamps w (t ++ u) out w' := by
  have slots := (Config.nodup_versions_of_valid valid).2
  obtain ⟨u, c, endings, rest, ended⟩ := Board.exists_reaches_end host slots b
  have expands := Config.expand_eq_ok_iff.mpr ⟨valid, rfl⟩
  exact ⟨u, _, _, .settled expands narrow (reached.trans rest) ended⟩

end CoverageMatrix
