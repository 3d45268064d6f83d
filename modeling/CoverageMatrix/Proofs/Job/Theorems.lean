import CoverageMatrix.Matrix.Expand
import CoverageMatrix.Proofs.Job.Coverage

/-!
# What a job comes to

The result of a job is a function of the outcomes of its phases, and no coverage data of an earlier
job comes through to it. The proofs are in the modules beside this one; here their last steps stand
together.
-/
namespace CoverageMatrix

/-- A job that begins afresh comes to a result exactly if none of its phases breaks down, and then
its result is the one that the history of its phases gives. That history has one entry for each
phase, in order, and a phase was run exactly if the outcomes before it ask for it. -/
theorem JobPipeline.run_result_of_history (p : JobPipeline) (c : Config) (job : Job)
    (id : ReporterId) (reporter : Reporter) (cwd : Path) (stamp : Stamp) (t : Transcript) :
    let ctx := JobContext.start c job id reporter cwd
    (∀ r, (p.run ctx stamp).Follows t (some r) ↔
      ∃ h f, Course ctx [] ctx.findings p.phases t (some (h, f)) ∧ r = h.result job f stamp) ∧
    ((p.run ctx stamp).Follows t none ↔ Course ctx [] ctx.findings p.phases t none) ∧
    ∀ h f, Course ctx [] ctx.findings p.phases t (some (h, f)) →
      h.map Prod.fst = p.kinds ∧ h.Lawful := by
  intro ctx
  have run {o : Option JobResult} : (p.run ctx stamp).Follows t o ↔
      ∃ e, Course ctx [] ctx.findings p.phases t e ∧
        o = e.map fun q => q.1.result job q.2 stamp :=
    p.follows_run_iff stamp rfl rfl
  refine ⟨fun r => ?_, ?_, fun h f course => ?_⟩
  · rw [run]
    constructor
    · rintro ⟨e, course, he⟩
      obtain ⟨⟨h, f⟩, rfl, rfl⟩ := Option.map_eq_some_iff.mp he.symm
      exact ⟨h, f, course, rfl⟩
    · rintro ⟨h, f, course, rfl⟩
      exact ⟨some (h, f), course, rfl⟩
  · rw [run]
    constructor
    · rintro ⟨e, course, he⟩
      rwa [Option.map_eq_none_iff.mp he.symm] at course
    · intro course
      exact ⟨none, course, rfl⟩
  · exact course.kinds_lawful .nil

/-- Surroundings in which the tests write their coverage data to one place, and every other command
ends well and does nothing. -/
def coveringHost (l : Files.Location) (data : ByteArray) : Host where
  cwd := []
  command i w :=
    ⟨some (.ok ⟨0, "", "", 0⟩),
      if i.label = "test suite" ∧ l ≠ [] then w.files.put l (.file data false) else w.files⟩
  service _ _ := .ok ()
  download _ _ := .ok .empty

/-- A job that runs in the root directory. -/
def rootJob : Job :=
  ⟨⟨"python-2.7"⟩, 1, "python", "2.7", .empty, "0"⟩

/-- The place of its coverage data. -/
def rootData : Path :=
  ⟨"/.coverage.python-2.7"⟩

/-- A world with an earlier job's coverage data. -/
def staleWorld : World :=
  ⟨⟨[([".coverage.python-2.7"], .file "old".toUTF8 false)]⟩, []⟩

end CoverageMatrix
