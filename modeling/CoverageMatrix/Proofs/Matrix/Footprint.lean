import CoverageMatrix.Proofs.Matrix.Isolation
import CoverageMatrix.Proofs.Phase.Requests
import CoverageMatrix.Proofs.Program.Surroundings

/-!
# When jobs keep to themselves

Whether a request is a job's own is read off the locations that its paths lead over. The standard
pipeline touches the data file and looks at the report of a job by itself; if these lie apart from
what other jobs read, the jobs keep to themselves as soon as their commands and the reporter do
(`MatrixRunner.standard_isolates`).
-/
namespace CoverageMatrix

open Files (Covers goal origin)

namespace World

variable {reads : Files.Location → Prop} {job : JobId} {w v : World}

theorem AlikeFor.noted (h : w.AlikeFor reads job v) (n : Note) :
    (w.noted n).AlikeFor reads job (v.noted n) where
  files := h.files
  acquired := by
    rw [journal_noted, journal_noted, List.contains_append, List.contains_append, h.acquired]
  closing := by
    have closing : w.journal.contains (.closing job) = v.journal.contains (.closing job) :=
      h.closing
    simp only [hasBegunClosing, journal_noted, List.contains_append, closing]

/-- A note about something else changes nothing that a job sees. -/
theorem alikeFor_noted {n : Note} (acquired : n ≠ .acquired job) (closing : n ≠ .closing job) :
    w.AlikeFor reads job (w.noted n) where
  files := .refl _ _
  acquired := by simp [acquired.symm]
  closing := by simp [hasBegunClosing, closing.symm]

theorem AlikeFor.of_files {files files' : Files.Tree} (h : w.AlikeFor reads job v)
    (agree : files.AgreeOn reads files') :
    AlikeFor reads job { w with files := files } { v with files := files' } :=
  ⟨agree, h.acquired, h.closing⟩

theorem AlikeFor.changed {r r' : Except Files.Fault Files.Tree} (h : w.AlikeFor reads job v)
    (after : Files.Tree.AgreeAfter reads r r') :
    (w.changed r).1 = (v.changed r').1 ∧
      (w.changed r).2.AlikeFor reads job (v.changed r').2 := by
  obtain ⟨same, files⟩ := changed_congr h.files after
  refine ⟨same, files, ?_, ?_⟩
  · rw [journal_changed, journal_changed, h.acquired]
  · rw [hasBegunClosing, hasBegunClosing, journal_changed, journal_changed]
    exact h.closing

end World

namespace Request

variable {host : Host} {reads : JobId → Files.Location → Prop} {jobs : List Job} {job : Job}

theorem isOwnOf_note {n : Note}
    (silent : ∀ other ∈ jobs, other.id ≠ job.id → n ≠ .acquired other.id ∧ n ≠ .closing other.id) :
    (note n).IsOwnOf host reads jobs job where
  answered _ _ alike := ⟨rfl, alike.noted n⟩
  others other mem ne w := by
    obtain ⟨acquired, closing⟩ := silent other mem ne
    exact World.alikeFor_noted acquired closing

theorem isOwnOf_session (call : SessionCall) : (note (.session call)).IsOwnOf host reads jobs job :=
  isOwnOf_note fun _ _ _ => ⟨by simp, by simp⟩

/-- A command is a job's own if its outcome and its effect on the files that the job reads depend on
nothing else, and it leaves alone what other jobs read. -/
theorem isOwnOf_command {i : Invocation}
    (answered : ∀ w v : World, w.AlikeFor (reads job.id) job.id v →
      (host.command i w).outcome = (host.command i v).outcome ∧
        (host.command i w).files.AgreeOn (reads job.id) (host.command i v).files)
    (others : ∀ other ∈ jobs, other.id ≠ job.id →
      ∀ w : World, w.files.AgreeOn (reads other.id) (host.command i w).files) :
    (command i).IsOwnOf host reads jobs job where
  answered w v alike := by
    obtain ⟨outcome, files⟩ := answered w v alike
    exact ⟨outcome, (alike.noted (.command i)).of_files files⟩
  others other mem ne w :=
    (World.alikeFor_noted (by simp) (by simp)).trans
      ((World.AlikeFor.refl _ _ (w.noted (.command i))).of_files (others other mem ne w))

theorem isOwnOf_readFile {p : Path} (covers : Covers (reads job.id) host.cwd p) :
    (readFile p).IsOwnOf host reads jobs job where
  answered _ _ alike := ⟨congrArg some (Files.Tree.read_congr alike.files covers), alike⟩
  others _ _ _ _ := .refl _ _ _

theorem isOwnOf_isPresent {p : Path} (covers : Covers (reads job.id) host.cwd p) :
    (isPresent p).IsOwnOf host reads jobs job where
  answered _ _ alike := ⟨congrArg some (Files.Tree.isPresent_congr alike.files covers), alike⟩
  others _ _ _ _ := .refl _ _ _

theorem isOwnOf_removeFile {p : Path} (covers : Covers (reads job.id) host.cwd p)
    (apart : ∀ other ∈ jobs, other.id ≠ job.id →
      ¬reads other.id (goal (origin host.cwd p) p.components)) :
    (removeFile p).IsOwnOf host reads jobs job where
  answered w v alike := by
    obtain ⟨same, after⟩ := alike.changed (Files.Tree.removeFile_congr alike.files covers)
    exact ⟨congrArg some same, after⟩
  others other mem ne w := by
    simp only [Host.answer, Host.answer.changing, World.changed]
    cases removed : w.files.removeFile host.cwd p with
    | error fault => exact .refl _ _ _
    | ok t =>
      have agree := Files.Tree.agreeOn_removeFile removed (apart other mem ne)
      exact (World.AlikeFor.refl _ _ w).of_files agree

end Request

namespace MatrixRunner

variable {host : Host} {reads : JobId → Files.Location → Prop}

/-- The report that a job's export writes. -/
def reportOf (c : Config) (cwd : Path) (job : Job) : Path :=
  (c.workdir.absolute cwd).join ⟨job.renderArg c.exports.output⟩

/-- The data file of a job's coverage. -/
def dataOf (c : Config) (cwd : Path) (job : Job) : Path :=
  JobContext.dataFile (c.workdir.absolute cwd) c.tests job.id

theorem standard_isolates (c : Config) (id : ReporterId) (reporter : Reporter)
    (stamps : Nat → Stamp)
    (report : ∀ job ∈ c.jobs, Covers (reads job.id) host.cwd (reportOf c host.cwd.path job))
    (data : ∀ job ∈ c.jobs, Covers (reads job.id) host.cwd (dataOf c host.cwd.path job))
    (apart : ∀ job ∈ c.jobs, ∀ other ∈ c.jobs, other.id ≠ job.id → ¬reads other.id
      (goal (origin host.cwd (dataOf c host.cwd.path job)) (dataOf c host.cwd.path job).components))
    (command : ∀ job ∈ c.jobs, ∀ i, (Request.command i).IsOwnOf host reads c.jobs job)
    (opened : ∀ job ∈ c.jobs, ∀ env, (reporter.opened id ⟨job.id, c.workdir.absolute host.cwd.path,
      env⟩).Obeys (Request.IsOwnOf host reads c.jobs job) True fun _ => True)
    (closed : ∀ job ∈ c.jobs, ∀ env code, (reporter.closed id ⟨job.id,
      c.workdir.absolute host.cwd.path, env⟩ code).Obeys (Request.IsOwnOf host reads c.jobs job)
        True fun _ => True) :
    (standard c id reporter).Isolates host stamps reads where
  program job mem := by
    have closing : (Request.note (.closing job.id)).IsOwnOf host reads c.jobs job :=
      Request.isOwnOf_note fun other _ ne => ⟨by simp, by simpa using ne.symm⟩
    refine (JobPipeline.run_obeys (JobPipeline.standard c)
      (P := Request.IsOwnOf host reads c.jobs job) (C := True)
      (I := fun f => f.coverage.dataFile = dataOf c host.cwd.path job) ⟨rfl, rfl⟩ rfl ?_).asks
    intro phase among h f same
    have erase : (Request.removeFile f.coverage.dataFile).IsOwnOf host reads c.jobs job := by
      rw [same]
      exact Request.isOwnOf_removeFile (data job mem) (apart job mem)
    have collect : (Request.readFile f.coverage.dataFile).IsOwnOf host reads c.jobs job := by
      rw [same]
      exact Request.isOwnOf_readFile (data job mem)
    have look : (Request.isPresent (reportOf c host.cwd.path job)).IsOwnOf host reads c.jobs job :=
      Request.isOwnOf_isPresent (report job mem)
    let ctx := h.contextOf (.start c job id reporter host.cwd.path) f
    simp only [JobPipeline.standard, List.mem_cons, List.not_mem_nil, or_false] at among
    rcases among with rfl | rfl | rfl | rfl | rfl
    · have asks := Phase.install_obeys ctx c.dependencies c.installers (C := True) fun i _ _ =>
        command job mem i
      exact asks.ends_mono fun r eq => (congrArg (·.coverage.dataFile) eq).trans same
    · have asks := Phase.openSession_findings ctx (Request.isOwnOf_session _) (opened job mem _)
      exact asks.ends_mono fun r eq => (congrArg (·.coverage.dataFile) eq).trans same
    · have asks := Phase.testRun_obeys ctx c.tests (C := True) erase (fun i _ _ => command job mem i)
        collect
      exact asks.ends_mono fun r eq => eq.trans same
    · have asks := Phase.closeSession_findings ctx closing (Request.isOwnOf_session _)
        (closed job mem _ _)
      exact asks.ends_mono fun r eq => (congrArg (·.coverage.dataFile) eq).trans same
    · have asks := Phase.exportCoverage_obeys ctx c.exports (C := True)
        (fun i _ _ => command job mem i) look
      exact asks.ends_mono fun r eq => (congrArg (·.dataFile) eq).trans same
  lateCall job mem := ⟨Request.isOwnOf_session _, fun _ _ _ => (closed job mem _ _).asks⟩

end MatrixRunner
end CoverageMatrix
