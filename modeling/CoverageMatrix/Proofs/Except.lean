import Mathlib.Data.List.Forall2

/-!
# Computations that can fail

What a computation has passed if it succeeded: each step, each check on the way, and each member of
a list.
-/
namespace CoverageMatrix

variable {ε ε' α β : Type} {x : Except ε α} {f : α → Except ε β} {e : ε} {p : Prop} [Decidable p]

/-- A step that succeeds before others do. -/
theorem ok_of_bind {b : β} (h : x >>= f = .ok b) : ∃ a, x = .ok a ∧ f a = .ok b := by
  cases x with
  | error e => cases h
  | ok a => exact ⟨a, rfl, h⟩

theorem bind_eq_ok_iff {b : β} : x >>= f = .ok b ↔ ∃ a, x = .ok a ∧ f a = .ok b := by
  refine ⟨ok_of_bind, ?_⟩
  rintro ⟨a, rfl, h⟩
  exact h

theorem pure_eq_ok_iff {a a' : α} : (pure a : Except ε α) = .ok a' ↔ a = a' :=
  ⟨fun h => Except.ok.inj h, fun h => congrArg Except.ok h⟩

/-- A check that stops a computation before its other steps. -/
theorem guard_eq_ok_iff {others : Except ε β} {b : β} :
    (if p then throw e >>= f else others) = .ok b ↔ ¬p ∧ others = .ok b := by
  split
  · next stopped => exact iff_of_false nofun fun passed => passed.1 stopped
  · next passed => exact (and_iff_right passed).symm

theorem ite_throw_eq_ok_iff {a : α} : (if p then x else throw e) = .ok a ↔ p ∧ x = .ok a := by
  split
  · next passed => exact (and_iff_right passed).symm
  · next stopped => exact iff_of_false nofun fun passed => stopped passed.1

theorem mapError_eq_ok_iff {g : ε → ε'} {a : α} : x.mapError g = .ok a ↔ x = .ok a := by
  cases x <;> simp [Except.mapError]

theorem forM_eq_ok_iff {xs : List α} {check : α → Except ε Unit} :
    xs.forM check = .ok () ↔ ∀ x ∈ xs, check x = .ok () := by
  induction xs with
  | nil => exact iff_of_true rfl nofun
  | cons x xs ih =>
    rw [List.forM_eq_forM, List.forM_cons, List.forall_mem_cons, bind_eq_ok_iff, ← ih]
    exact ⟨fun ⟨(), h⟩ => h, fun h => ⟨(), h⟩⟩

theorem mapM_eq_ok_iff {xs : List α} {ys : List β} :
    xs.mapM f = .ok ys ↔ List.Forall₂ (fun x y => f x = .ok y) xs ys := by
  induction xs generalizing ys with
  | nil => rw [List.mapM_nil, List.forall₂_nil_left_iff, pure_eq_ok_iff, eq_comm]
  | cons x xs ih =>
    simp only [List.mapM_cons, bind_eq_ok_iff, pure_eq_ok_iff, List.forall₂_cons_left_iff, ih]
    constructor
    · rintro ⟨y, first, zs, others, rfl⟩
      exact ⟨y, zs, first, others, rfl⟩
    · rintro ⟨y, zs, first, others, rfl⟩
      exact ⟨y, first, zs, others, rfl⟩

end CoverageMatrix
