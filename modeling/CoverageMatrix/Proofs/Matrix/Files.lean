import CoverageMatrix.Job.Context
import CoverageMatrix.Proofs.Matrix.Jobs
import CoverageMatrix.Proofs.Path
import CoverageMatrix.Reporting.Helper

/-!
# The files of a job

A job marks the files that only it may write with its name, put behind a hyphen. Two jobs have
different names, but their marks can still lead to the same place.
-/
namespace CoverageMatrix

open CoverageMatrix.Path (SamePlace)

variable {c : Config} {jobs : List Job} {i j : Job}

namespace Config

theorem id_text_of_mem_jobs (h : i ∈ c.jobs) :
    i.id.text = c.matrix.interpreter ++ "-" ++ i.version := by
  obtain ⟨place, version, -, rfl⟩ := exists_of_mem_jobsFrom h
  rfl

theorem version_ne_of_ne (valid : c.validate = .ok ()) (hi : i ∈ c.jobs) (hj : j ∈ c.jobs)
    (different : i ≠ j) : i.version ≠ j.version := by
  intro same
  have text : i.id.text = j.id.text := by
    rw [id_text_of_mem_jobs hi, id_text_of_mem_jobs hj, same]
  have id : i.id = j.id := congrArg JobId.mk text
  exact different (List.inj_on_of_nodup_map (nodup_ids_of_valid valid) hi hj id)

end Config

/-! ## Paths marked with the job -/

theorem JobContext.exists_dataFile_eq (workdir : Path) (tests : Config.Tests)
    (interpreter : String) : ∃ p : Path, p.text ≠ "" ∧ ∀ version,
      dataFile workdir tests ⟨interpreter ++ "-" ++ version⟩ = p.append ("-" ++ version) := by
  have some : (tests.coverageFile.append ("." ++ interpreter)).text ≠ "" := by
    simp [Path.append]
  refine ⟨workdir.join (tests.coverageFile.append ("." ++ interpreter)),
    Path.join_text_ne some, fun version => ?_⟩
  rw [← Path.join_append some, Path.append_append]
  simp [dataFile, String.append_assoc]

theorem Helper.exists_locationFor_eq (h : Helper) (workdir : Path) (interpreter : String) :
    ∃ p : Path, p.text ≠ "" ∧ ∀ version scope, scope.jobId = ⟨interpreter ++ "-" ++ version⟩ →
      scope.workdir = workdir →
        h.locationFor scope = (p.append ("-" ++ version)).absolute h.cwd := by
  refine ⟨(workdir.join h.path).append ("-" ++ interpreter), by simp [Path.append],
    fun version scope job place => ?_⟩
  rw [locationFor, job, place, Path.append_append, String.append_assoc, String.append_assoc]

namespace JobContext

/-- Two jobs of a valid configuration write the same coverage data file, and run the same copy of
the helper, exactly where their versions, behind the hyphen of their names, end in the same place;
versions without slashes never do. -/
theorem files_shared_iff (expanded : c.expand = .ok jobs) (hi : i ∈ jobs) (hj : j ∈ jobs)
    (different : i ≠ j) (id : ReporterId) (reporter : Reporter) (cwd : Path) :
    let context := fun job => start c job id reporter cwd
    let data := fun job => (context job).findings.coverage.dataFile
    let copy := fun job => (Helper.ofConfig c.reporter cwd).locationFor (context job).scope
    i.version ≠ j.version ∧
      (SamePlace (data i) (data j) ↔ SamePlace ⟨"-" ++ i.version⟩ ⟨"-" ++ j.version⟩) ∧
      (SamePlace (copy i) (copy j) ↔ SamePlace ⟨"-" ++ i.version⟩ ⟨"-" ++ j.version⟩) ∧
      ('/' ∉ i.version.toList → '/' ∉ j.version.toList →
        ¬SamePlace (data i) (data j) ∧ ¬SamePlace (copy i) (copy j)) := by
  intro context data copy
  obtain ⟨valid, rfl⟩ := Config.expand_eq_ok_iff.mp expanded
  have apart : i.version ≠ j.version := Config.version_ne_of_ne valid hi hj different
  have named {job : Job} (h : job ∈ c.jobs) :
      job.id = ⟨c.matrix.interpreter ++ "-" ++ job.version⟩ :=
    congrArg JobId.mk (Config.id_text_of_mem_jobs h)
  have data_iff : SamePlace (data i) (data j) ↔
      SamePlace ⟨"-" ++ i.version⟩ ⟨"-" ++ j.version⟩ := by
    obtain ⟨p, some, marks⟩ := exists_dataFile_eq (c.workdir.absolute cwd) c.tests
      c.matrix.interpreter
    have marked {job : Job} (h : job ∈ c.jobs) : data job = p.append ("-" ++ job.version) :=
      (congrArg (dataFile _ _) (named h)).trans (marks job.version)
    rw [marked hi, marked hj]
    exact Path.samePlace_append_iff p some _ _
  have copy_iff : SamePlace (copy i) (copy j) ↔
      SamePlace ⟨"-" ++ i.version⟩ ⟨"-" ++ j.version⟩ := by
    obtain ⟨p, some, marks⟩ := (Helper.ofConfig c.reporter cwd).exists_locationFor_eq
      (c.workdir.absolute cwd) c.matrix.interpreter
    have marked {job : Job} (h : job ∈ c.jobs) :
        copy job = (p.append ("-" ++ job.version)).absolute cwd :=
      marks job.version (context job).scope (named h) rfl
    have solid (version : String) : (p.append ("-" ++ version)).text ≠ "" := by
      simp [Path.append]
    have alike : (p.append ("-" ++ i.version)).isAbsolute =
        (p.append ("-" ++ j.version)).isAbsolute := by
      rw [Path.isAbsolute_append some, Path.isAbsolute_append some]
    rw [marked hi, marked hj, Path.samePlace_absolute_iff (solid _) (solid _) alike]
    exact Path.samePlace_append_iff p some _ _
  refine ⟨apart, data_iff, copy_iff, fun hi' hj' => ?_⟩
  have ends : ¬SamePlace ⟨"-" ++ i.version⟩ ⟨"-" ++ j.version⟩ := fun same =>
    apart ((Path.samePlace_iff_of_slashless hi' hj').mp same)
  exact ⟨fun same => ends (data_iff.mp same), fun same => ends (copy_iff.mp same)⟩

/-- Two versions that differ in a doubled slash. -/
def nestedVersions : Config :=
  { matrix := { versions := ["a/b", "a//b"] } }

theorem files_shared_iff_nested : ∃ jobs i j, nestedVersions.expand = .ok jobs ∧
    i ∈ jobs ∧ j ∈ jobs ∧ i ≠ j ∧
    SamePlace (start nestedVersions i ⟨"token"⟩ .noop ⟨"/"⟩).findings.coverage.dataFile
      (start nestedVersions j ⟨"token"⟩ .noop ⟨"/"⟩).findings.coverage.dataFile := by
  have expanded : nestedVersions.expand = .ok nestedVersions.jobs := rfl
  have hi : nestedVersions.job 1 "a/b" ∈ nestedVersions.jobs := List.mem_cons_self
  have hj : nestedVersions.job 2 "a//b" ∈ nestedVersions.jobs :=
    List.mem_cons_of_mem _ List.mem_cons_self
  have different : nestedVersions.job 1 "a/b" ≠ nestedVersions.job 2 "a//b" := fun h =>
    absurd (congrArg Job.number h) (by decide)
  obtain ⟨-, data, -, -⟩ := files_shared_iff expanded hi hj different ⟨"token"⟩ .noop ⟨"/"⟩
  exact ⟨_, _, _, expanded, hi, hj, different, data.mpr ⟨by decide, by decide⟩⟩

end JobContext
end CoverageMatrix
