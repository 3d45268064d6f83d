import CoverageMatrix.Proofs.Files.Agreement
import CoverageMatrix.Proofs.Matrix.Settling
import CoverageMatrix.Proofs.Program.Runs

/-!
# Jobs that keep to themselves

If each job asks only for what is its own (`MatrixRunner.Isolates`), the others cannot be told from
its course: at every point of every schedule a job goes on as it would have done alone, in a world
that is alike for it. `Board.Foretold` is that invariant; at the end of a schedule it gives the
results (`MatrixRunner.settle_alone`).
-/
namespace CoverageMatrix

/-! ## What a job can see -/

/-- Two worlds are alike for a job: in the files that it reads, in whether its helper was put in
place, and in whether its closing step has begun. -/
structure World.AlikeFor (reads : Files.Location → Prop) (job : JobId) (w v : World) : Prop where
  files : w.files.AgreeOn reads v.files
  acquired : w.journal.contains (.acquired job) = v.journal.contains (.acquired job)
  closing : w.hasBegunClosing job = v.hasBegunClosing job

/-- A request that is a job's own: its answer and its effect on what the job sees depend on nothing
else, and it changes nothing that another job sees. -/
structure Request.IsOwnOf (host : Host) (reads : JobId → Files.Location → Prop) (jobs : List Job)
    (job : Job) (r : Request) : Prop where
  answered : ∀ w v : World, w.AlikeFor (reads job.id) job.id v →
    (host.answer w r).1 = (host.answer v r).1 ∧
      (host.answer w r).2.AlikeFor (reads job.id) job.id (host.answer v r).2
  others : ∀ other ∈ jobs, other.id ≠ job.id →
    ∀ w : World, w.AlikeFor (reads other.id) other.id (host.answer w r).2

/-- Every job of a matrix makes only requests of its own, and so does the call that closes its
session for it. -/
structure MatrixRunner.Isolates (m : MatrixRunner) (host : Host) (stamps : Nat → Stamp)
    (reads : JobId → Files.Location → Prop) : Prop where
  program : ∀ job ∈ m.config.jobs,
    (m.program host.cwd.path stamps job).Asks host (Request.IsOwnOf host reads m.config.jobs job)
  lateCall : ∀ job ∈ m.config.jobs,
    (m.lateCall host.cwd.path job).Asks host (Request.IsOwnOf host reads m.config.jobs job)

/-- What a job comes to when it is the only one that runs: its result, or that of its breakdown. -/
def MatrixRunner.alone (m : MatrixRunner) (host : Host) (stamps : Nat → Stamp) (w : World)
    (job : Job) : Option JobResult :=
  let (r, v) := (m.program host.cwd.path stamps job).run host w.renewed
  (m.settleJob host stamps (job, r) v).1

namespace World

variable {reads : Files.Location → Prop} {job : JobId} {w v u : World}

theorem AlikeFor.refl (reads : Files.Location → Prop) (job : JobId) (w : World) :
    w.AlikeFor reads job w :=
  ⟨.refl reads w.files, rfl, rfl⟩

theorem AlikeFor.symm (h : w.AlikeFor reads job v) : v.AlikeFor reads job w :=
  ⟨h.files.symm, h.acquired.symm, h.closing.symm⟩

theorem AlikeFor.trans (h : w.AlikeFor reads job v) (g : v.AlikeFor reads job u) :
    w.AlikeFor reads job u :=
  ⟨h.files.trans g.files, h.acquired.trans g.acquired, h.closing.trans g.closing⟩

end World

variable {host : Host} {reads : JobId → Files.Location → Prop} {jobs : List Job} {job other : Job}

theorem Program.Asks.runsAlike_of_own {α : Type} {p : Program α}
    (h : p.Asks host (Request.IsOwnOf host reads jobs job)) :
    RunsAlike host (World.AlikeFor (reads job.id) job.id) p fun _ =>
      World.AlikeFor (reads job.id) job.id :=
  Asks.runsAlike (h.mono fun _ own => own.answered)

theorem Program.Asks.run_others {α : Type} {p : Program α}
    (h : p.Asks host (Request.IsOwnOf host reads jobs job)) (mem : other ∈ jobs)
    (ne : other.id ≠ job.id) (w : World) :
    w.AlikeFor (reads other.id) other.id (p.run host w).2 :=
  Asks.run_keeps (.refl _ _) (fun _ _ _ h g => h.trans g)
    (h.mono fun _ own => own.others other mem ne) w

/-! ## One step -/

/-- What is left to do of a job; one that has ended does nothing but end once more. -/
def Task.rest : Task → Program JobResult
  | waiting p => p
  | running p => p
  | ended (some r) => .done r
  | ended none => .crash

/-- A job is where its own program, run alone, comes by in a world that is alike for it. -/
structure Task.Foretold (host : Host) (reads : JobId → Files.Location → Prop) (jobs : List Job)
    (job : Job) (alone : Option JobResult × World) (t : Task) (w : World) : Prop where
  asks : t.rest.Asks host (Request.IsOwnOf host reads jobs job)
  ends : ∃ v : World, w.AlikeFor (reads job.id) job.id v ∧ t.rest.run host v = alone

namespace Task

variable {alone : Option JobResult × World} {a b : Task} {u : Transcript} {w w' : World}

/-- What other jobs do to the world does not concern a job. -/
theorem Foretold.of_alike (h : a.Foretold host reads jobs job alone w)
    (alike : w.AlikeFor (reads job.id) job.id w') : a.Foretold host reads jobs job alone w' := by
  obtain ⟨v, seen, ends⟩ := h.ends
  exact ⟨h.asks, v, alike.symm.trans seen, ends⟩

theorem Foretold.move (h : a.Foretold host reads jobs job alone w) (m : a.Moves host w u b w') :
    b.Foretold host reads jobs job alone w' := by
  cases m with
  | finish r => exact ⟨h.asks, h.ends⟩
  | breakDown => exact ⟨h.asks, h.ends⟩
  | answered answered =>
    obtain ⟨v, seen, ends⟩ := h.ends
    obtain ⟨same, after⟩ := h.asks.1.answered w v seen
    rw [answered] at same after
    refine ⟨h.asks.2 w _ (by rw [answered]), _, after, ?_⟩
    rw [← ends]
    simp only [rest, Program.run]
    rw [← Prod.eta (host.answer v _), ← same]
  | unanswered unanswered =>
    obtain ⟨v, seen, ends⟩ := h.ends
    obtain ⟨same, after⟩ := h.asks.1.answered w v seen
    rw [unanswered] at same after
    refine ⟨trivial, _, after, ?_⟩
    rw [← ends]
    simp only [rest, Program.run]
    rw [← Prod.eta (host.answer v _), ← same]

/-- A step of one job changes nothing that another one sees. -/
theorem Foretold.move_others (h : a.Foretold host reads jobs job alone w)
    (m : a.Moves host w u b w') (mem : other ∈ jobs) (ne : other.id ≠ job.id) :
    w.AlikeFor (reads other.id) other.id w' := by
  cases m with
  | finish r => exact .refl _ _ _
  | breakDown => exact .refl _ _ _
  | answered answered | unanswered answered =>
    have unseen := h.asks.1.others other mem ne w
    rwa [answered] at unseen

end Task

/-! ## Every schedule -/

namespace Board

/-- Every job on a board is where it would come by alone. -/
structure Foretold (host : Host) (reads : JobId → Files.Location → Prop) (jobs : List Job)
    (alone : Job → Option JobResult × World) (b : Board) : Prop where
  jobs_eq : b.tasks.map Prod.fst = jobs
  foretold : ∀ job t, (job, t) ∈ b.tasks → t.Foretold host reads jobs job (alone job) b.world

variable {permits : Nat} {alone : Job → Option JobResult × World} {a b : Board} {t : Trace}

theorem Foretold.step (distinct : (jobs.map (·.id)).Nodup)
    (h : a.Foretold host reads jobs alone) (s : a.Step host permits t b) :
    b.Foretold host reads jobs alone := by
  obtain ⟨jobs_eq, foretold⟩ := h
  cases s with
  | @enter before after job p w _ =>
    refine ⟨by simpa using jobs_eq, fun other task mem => ?_⟩
    rcases mem_middle_iff.mp mem with eq | mem
    · cases eq
      have waiting := foretold job (.waiting p) (by simp)
      exact ⟨waiting.asks, waiting.ends⟩
    · exact foretold other task (mem_middle_iff.mpr (.inr mem))
  | @move before after job task task' u w w' m =>
    have jobs_eq : (before ++ (job, task) :: after).map Prod.fst = jobs := jobs_eq
    have own := foretold job task (by simp)
    refine ⟨by simpa using jobs_eq, fun other task'' mem => ?_⟩
    rcases mem_middle_iff.mp mem with eq | mem
    · cases eq
      exact own.move m
    · have distinct : ((before ++ (job, task) :: after).map fun t => t.1.id).Nodup := by
        rw [← jobs_eq, List.map_map] at distinct
        exact distinct
      have among : other ∈ jobs := by
        rw [← jobs_eq]
        exact List.mem_map.mpr ⟨(other, task''), mem_middle_iff.mpr (.inr mem), rfl⟩
      have unseen := own.move_others m among (id_ne_of_mem_others distinct mem).symm
      exact (foretold other task'' (mem_middle_iff.mpr (.inr mem))).of_alike unseen

theorem Reaches.foretold (distinct : (jobs.map (·.id)).Nodup)
    (start : a.Foretold host reads jobs alone) (r : a.Reaches host permits t b) :
    b.Foretold host reads jobs alone := by
  induction r with
  | refl => exact start
  | tail _ s ih => exact ih.step distinct s

end Board

/-! ## From the endings to the results -/

namespace MatrixRunner

variable {m : MatrixRunner} {stamps : Nat → Stamp} {w u v : World} {t : Trace} {b : Board}
  {endings : List JobEnding}

theorem Isolates.opening_foretold (h : m.Isolates host stamps reads) (w : World) :
    (m.opening host stamps m.config.jobs w).Foretold host reads m.config.jobs
      fun job => (m.program host.cwd.path stamps job).run host w where
  jobs_eq := by simp [opening, Function.comp_def]
  foretold := by
    intro job task mem
    obtain ⟨job, among, eq⟩ := List.mem_map.mp mem
    cases eq
    exact ⟨h.program job among, w, .refl _ _ _, rfl⟩

/-- An ending of a job is the one that it has when it runs alone. -/
theorem Isolates.ending (h : m.Isolates host stamps reads) (valid : m.config.validate = .ok ())
    (reached : (m.opening host stamps m.config.jobs w).Reaches host
      m.config.matrix.parallelism t b)
    (ended : b.endings = some endings) {r : Option JobResult} (mem : (job, r) ∈ endings) :
    ∃ v : World, b.world.AlikeFor (reads job.id) job.id v ∧
      (m.program host.cwd.path stamps job).run host w = (r, v) := by
  have foretold :=
    reached.foretold (Config.nodup_ids_of_valid valid) (h.opening_foretold w)
  have tasks := Board.endings_eq_some_iff.mp ended
  obtain ⟨-, v, alike, ends⟩ :=
    foretold.foretold job (.ended r) (tasks ▸ List.mem_map.mpr ⟨_, mem, rfl⟩)
  refine ⟨v, alike, ends.symm.trans ?_⟩
  cases r <;> rfl

theorem Isolates.settleJob_congr (h : m.Isolates host stamps reads) (mem : job ∈ m.config.jobs)
    (alike : u.AlikeFor (reads job.id) job.id v) (r : Option JobResult) :
    (m.settleJob host stamps (job, r) u).1 = (m.settleJob host stamps (job, r) v).1 := by
  cases r with
  | some result => rfl
  | none =>
    obtain ⟨same, -⟩ := (h.lateCall job mem).runsAlike_of_own u v alike
    change (m.recover host stamps job u).1 = (m.recover host stamps job v).1
    cases begun : u.hasBegunClosing job.id with
    | true => rw [recover_of_begun begun, recover_of_begun (alike.closing ▸ begun)]
    | false =>
      rw [recover_of_not_begun begun, recover_of_not_begun (alike.closing ▸ begun), same]

theorem Isolates.settleJob_others (h : m.Isolates host stamps reads) (mem : job ∈ m.config.jobs)
    (among : other ∈ m.config.jobs) (ne : other.id ≠ job.id) (r : Option JobResult) (u : World) :
    u.AlikeFor (reads other.id) other.id (m.settleJob host stamps (job, r) u).2 := by
  cases r with
  | some result => exact .refl _ _ _
  | none =>
    change u.AlikeFor (reads other.id) other.id (m.recover host stamps job u).2
    cases begun : u.hasBegunClosing job.id with
    | true =>
      rw [recover_of_begun begun]
      exact .refl _ _ _
    | false =>
      rw [recover_of_not_begun begun]
      exact (h.lateCall job mem).run_others among ne u

/-- Jobs that ended as they would have done alone are settled as they would be alone, in whatever
world that each of them cannot tell from its own. -/
theorem Isolates.settle_alone (h : m.Isolates host stamps reads) {rs : List JobResult}
    (jobs : ∀ e ∈ endings, e.1 ∈ m.config.jobs) (distinct : (endings.map fun e => e.1.id).Nodup)
    (foretold : ∀ job r, (job, r) ∈ endings → ∃ v : World,
      u.AlikeFor (reads job.id) job.id v ∧
        (m.program host.cwd.path stamps job).run host w.renewed = (r, v))
    (settled : (m.settle host stamps endings u).1 = some rs) :
    List.Forall₂ (fun e r => m.alone host stamps w e.1 = some r) endings rs := by
  induction endings generalizing u rs with
  | nil =>
    cases settled
    exact .nil
  | cons ending rest ih =>
    obtain ⟨job, r⟩ := ending
    obtain ⟨among, jobs⟩ := List.forall_mem_cons.mp jobs
    obtain ⟨fresh, distinct⟩ := List.nodup_cons.mp distinct
    obtain ⟨v', alike, ran⟩ := foretold job r List.mem_cons_self
    have one := h.settleJob_congr among alike r
    rw [settle_cons] at settled
    rcases first : m.settleJob host stamps (job, r) u with ⟨_ | result, u'⟩ <;>
      simp only [first] at settled one
    · cases settled
    · obtain ⟨rs, more, rfl⟩ := Option.map_eq_some_iff.mp settled
      refine .cons ?_ (ih jobs distinct (fun other r' mem => ?_) more)
      · rw [alone, ran]
        exact one.symm
      · obtain ⟨v'', seen, ran⟩ := foretold other r' (List.mem_cons_of_mem _ mem)
        have ne : other.id ≠ job.id := by
          intro eq
          exact fresh (List.mem_map.mpr ⟨(other, r'), mem, eq⟩)
        have unseen := h.settleJob_others among (jobs _ mem) ne r u
        rw [first] at unseen
        exact ⟨v'', unseen.symm.trans seen, ran⟩

end MatrixRunner
end CoverageMatrix
