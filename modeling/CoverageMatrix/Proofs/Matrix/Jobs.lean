import CoverageMatrix.Matrix.Expand
import CoverageMatrix.Proofs.Config.Valid

/-!
# The jobs of a valid configuration

A valid configuration has at least one slot for jobs and names no version twice, so that its jobs
have different names.
-/
namespace CoverageMatrix.Config

variable {c : Config}

theorem nodup_versions_of_valid (h : c.validate = .ok ()) :
    c.matrix.versions.Nodup ∧ 0 < c.matrix.parallelism :=
  have valid := validate_eq_ok_iff.mp h
  ⟨valid.distinct, Nat.pos_of_ne_zero valid.slots⟩

theorem map_id_jobsFrom (number : Nat) (versions : List String) :
    (c.jobsFrom number versions).map (·.id) =
      versions.map fun v => ⟨c.matrix.interpreter ++ "-" ++ v⟩ := by
  induction versions generalizing number with
  | nil => rfl
  | cons v rest ih => exact congrArg _ (ih (number + 1))

theorem exists_of_mem_jobsFrom {i : Job} {number : Nat} {versions : List String}
    (h : i ∈ c.jobsFrom number versions) :
    ∃ place, ∃ version ∈ versions, i = c.job place version := by
  induction versions generalizing number with
  | nil => cases h
  | cons v rest ih =>
    rcases List.mem_cons.mp h with rfl | h
    · exact ⟨number, v, List.mem_cons_self, rfl⟩
    · obtain ⟨place, version, mem, rfl⟩ := ih h
      exact ⟨place, version, List.mem_cons_of_mem _ mem, rfl⟩

theorem nodup_ids_of_valid (h : c.validate = .ok ()) : (c.jobs.map (·.id)).Nodup := by
  rw [jobs, map_id_jobsFrom]
  refine (nodup_versions_of_valid h).1.map fun v u eq => ?_
  exact (String.append_right_inj _).mp (JobId.mk.inj eq)

theorem expand_eq_ok_iff {jobs : List Job} :
    c.expand = .ok jobs ↔ c.validate = .ok () ∧ jobs = c.jobs := by
  rw [expand, bind_eq_ok_iff]
  constructor
  · rintro ⟨⟨⟩, valid, eq⟩
    exact ⟨valid, (pure_eq_ok_iff.mp eq).symm⟩
  · rintro ⟨valid, rfl⟩
    exact ⟨(), valid, rfl⟩

theorem expand_ne_error (valid : c.validate = .ok ()) (e : PipelineError) :
    c.expand ≠ .error e := by
  rw [expand_eq_ok_iff.mpr ⟨valid, rfl⟩]
  exact nofun

end CoverageMatrix.Config
