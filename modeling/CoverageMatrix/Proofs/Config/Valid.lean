import CoverageMatrix.Config.Valid
import CoverageMatrix.Proofs.Except
import Mathlib.Data.List.Nodup

/-!
# Valid configurations

The checks of a configuration, taken together: which configurations pass all of them.
-/
namespace CoverageMatrix.Config

theorem versionProblem?_eq_none_iff {seen versions : List String} :
    versionProblem? seen versions = none ↔
      (∀ v ∈ versions, Text.isBlank v = false) ∧ versions.Nodup ∧ ∀ v ∈ versions, v ∉ seen := by
  induction versions generalizing seen with
  | nil => simp [versionProblem?]
  | cons v rest ih =>
    rw [versionProblem?, List.forall_mem_cons, List.forall_mem_cons, List.nodup_cons]
    cases blank : Text.isBlank v with
    | true => simp
    | false =>
      by_cases old : v ∈ seen
      · simp [old]
      · rw [if_neg (by simp), if_neg old, ih]
        simp only [List.mem_cons, not_or, true_and]
        constructor
        · rintro ⟨named, nodup, new⟩
          exact ⟨named, ⟨fun mem => (new v mem).1 rfl, nodup⟩, old, fun u mem => (new u mem).2⟩
        · rintro ⟨named, ⟨first, nodup⟩, -, new⟩
          exact ⟨named, nodup, fun u mem => ⟨fun eq => first (eq ▸ mem), new u mem⟩⟩

/-- What is asked of a configuration. -/
structure IsValid (c : Config) : Prop where
  someVersion : c.matrix.versions ≠ []
  named : ∀ v ∈ c.matrix.versions, Text.isBlank v = false
  distinct : c.matrix.versions.Nodup
  slots : c.matrix.parallelism ≠ 0
  commands : ∀ p ∈ c.requiredCommands, p.2 ≠ []
  targets : ∀ a ∈ c.dependencies, ∃ target, a.target = .ok target
  coverageVariable : Text.isBlank c.tests.coverageEnv = false
  helperPath : c.reporter.helperPath.text ≠ ""

theorem targets_eq_ok_iff {actions : List InstallAction} :
    (actions.forM fun a => a.target.map fun _ => ()) = .ok () ↔
      ∀ a ∈ actions, ∃ target, a.target = .ok target := by
  rw [forM_eq_ok_iff]
  refine forall₂_congr fun a _ => ?_
  cases a.target <;> simp [Except.map]

variable {c : Config}

theorem validate_eq_ok_iff : c.validate = .ok () ↔ c.IsValid := by
  unfold validate
  simp only [bind, Except.bind, pure, Except.pure, throw, throwThe, MonadExceptOf.throw]
  split
  · next none => exact iff_of_false nofun fun valid => valid.someVersion (List.isEmpty_iff.mp none)
  next someVersion =>
  split
  · next problem found =>
    refine iff_of_false nofun fun valid => ?_
    have fine : versionProblem? [] c.matrix.versions = none :=
      versionProblem?_eq_none_iff.mpr ⟨valid.named, valid.distinct, fun _ _ => List.not_mem_nil⟩
    rw [found] at fine
    cases fine
  next fine =>
  split
  · next none => exact iff_of_false nofun fun valid => valid.slots none
  next slots =>
  split
  · next name template found =>
    refine iff_of_false nofun fun valid => ?_
    have empty := List.find?_some found
    exact valid.commands _ (List.mem_of_find?_eq_some found) (List.isEmpty_iff.mp empty)
  next commands =>
  have commands : ∀ p ∈ c.requiredCommands, p.2 ≠ [] := by
    have none : c.requiredCommands.find? (·.2.isEmpty) = none :=
      Option.eq_none_iff_forall_ne_some.mpr fun p => commands p.1 p.2
    intro p mem empty
    exact List.find?_eq_none.mp none p mem (List.isEmpty_iff.mpr empty)
  split
  · next e refused =>
    refine iff_of_false nofun fun valid => ?_
    rw [targets_eq_ok_iff.mpr valid.targets] at refused
    cases refused
  next targets =>
  split
  · next blank =>
    refine iff_of_false nofun fun valid => ?_
    rw [valid.coverageVariable] at blank
    cases blank
  next coverageVariable =>
  split
  · next empty =>
    exact iff_of_false nofun fun valid => valid.helperPath (String.isEmpty_iff.mp empty)
  next helperPath =>
  obtain ⟨named, distinct, -⟩ := versionProblem?_eq_none_iff.mp
    (Option.eq_none_iff_forall_ne_some.mpr fine)
  exact iff_of_true rfl
    { someVersion := fun none => someVersion (List.isEmpty_iff.mpr none)
      named
      distinct
      slots
      commands
      targets := targets_eq_ok_iff.mp targets
      coverageVariable := Bool.eq_false_iff.mpr coverageVariable
      helperPath := fun empty => helperPath (String.isEmpty_iff.mpr empty) }

end CoverageMatrix.Config
