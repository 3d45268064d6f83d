import CoverageMatrix.Proofs.Files.Agreement

/-!
# Trees that differ in one file

Two trees may differ in a regular file at a path, which may also be missing in one of them. Clearing
the path makes them the same again (`DifferAt.cleared`), and nothing is there then
(`Cleared.isPresent_eq_false`).
-/
namespace CoverageMatrix.Files.Tree

/-- What a path names, if it names anything, is a regular file. -/
def HoldsFileAt (t : Tree) (cwd : Location) (p : Path) : Prop :=
  ∀ l e, t.find cwd p = .ok (l, e) → ∃ content executable, e = .file content executable

/-- Two trees hold the same but for what a path names, which is a regular file wherever there is
something. -/
structure DifferAt (cwd : Location) (p : Path) (t u : Tree) : Prop where
  elsewhere : ∀ l, (∀ e, t.find cwd p ≠ .ok (l, e)) → (∀ e, u.find cwd p ≠ .ok (l, e)) →
    t.get? l = u.get? l
  left : t.HoldsFileAt cwd p
  right : u.HoldsFileAt cwd p

/-- A tree once a file was removed, or found to be missing. -/
def Cleared (cwd : Location) (p : Path) (t t' : Tree) : Prop :=
  t.removeFile cwd p = .ok t' ∨ t.removeFile cwd p = .error .notFound ∧ t' = t

variable {t u t' : Tree} {cwd l : Location} {p : Path} {e : Entry}

theorem DifferAt.symm (h : DifferAt cwd p t u) : DifferAt cwd p u t :=
  ⟨fun l hu ht => (h.elsewhere l ht hu).symm, h.right, h.left⟩

theorem goal_of_find (h : t.find cwd p = .ok (l, e)) : goal (origin cwd p) p.components = l :=
  goal_of_locate (find_eq_ok_iff.mp h).1

/-- Names lead on in every tree that has the directories they led through. -/
theorem walk_of_directories (h : ∀ l, t.get? l = some .directory → u.get? l = some .directory)
    {start : Location} {names : List String} (walks : t.walk start names = .ok l) :
    u.walk start names = .ok l := by
  induction names generalizing start with
  | nil => exact walks
  | cons name rest ih =>
    rw [walk] at walks ⊢
    split at walks
    · cases walks
    · next here =>
      rw [h start here]
      dsimp only
      split at walks
      · next up =>
        rw [if_pos up]
        exact ih walks
      · next up =>
        rw [if_neg up]
        split at walks
        · cases walks
        · next short =>
          rw [if_neg short]
          exact ih walks
    · cases walks

theorem locate_of_directories (h : ∀ l, t.get? l = some .directory → u.get? l = some .directory)
    (located : t.locate cwd p = .ok l) : u.locate cwd p = .ok l := by
  rw [locate] at located ⊢
  split at located
  · cases located
  · split at located
    · cases located
    · split at located
      · cases located
      · simp only [*, Bool.false_eq_true, if_false]
        exact walk_of_directories h located

namespace DifferAt

/-- Where one tree has the file, the other one has its place. -/
theorem locate_eq (h : DifferAt cwd p t u) (found : t.find cwd p = .ok (l, e)) :
    u.locate cwd p = .ok l := by
  obtain ⟨located, there, -⟩ := find_eq_ok_iff.mp found
  obtain ⟨content, executable, rfl⟩ := h.left l e found
  refine locate_of_directories (fun l' directory => ?_) located
  -- the only place where the trees may differ is that of the file, and that is no directory
  have apart : l' ≠ l := by
    rintro rfl
    rw [there] at directory
    cases directory
  rw [← h.elsewhere l' ?_ ?_]
  · exact directory
  · intro e' found'
    exact apart ((goal_of_find found').symm.trans (goal_of_find found))
  · intro e' found'
    exact apart ((goal_of_find found').symm.trans (goal_of_find found))

/-- Away from the place of the file the trees hold the same. -/
theorem get?_eq (h : DifferAt cwd p t u) (found : t.find cwd p = .ok (l, e)) {l' : Location}
    (apart : l' ≠ l) : t.get? l' = u.get? l' := by
  refine h.elsewhere l' ?_ ?_
  · intro e' found'
    exact apart ((goal_of_find found').symm.trans (goal_of_find found))
  · intro e' found'
    exact apart ((goal_of_find found').symm.trans (goal_of_find found))

theorem cleared_of_found (h : DifferAt cwd p t u) (found : t.find cwd p = .ok (l, e)) :
    ∃ t' u', Cleared cwd p t t' ∧ Cleared cwd p u u' ∧ Same t' u' := by
  obtain ⟨located, there, last⟩ := find_eq_ok_iff.mp found
  obtain ⟨content, executable, rfl⟩ := h.left l e found
  have named : ending p = .name := last.resolve_left (by simp)
  have located' := h.locate_eq found
  have below : l ≠ [] := ne_root_of_get? there (by simp)
  have removed : t.removeFile cwd p = .ok (t.erase l) := by
    rw [removeFile_of_locate located, there]
    exact if_pos named
  cases there' : u.get? l with
  | none =>
    have missing : u.removeFile cwd p = .error .notFound := by
      rw [removeFile_of_locate located', there']
    refine ⟨t.erase l, u, .inl removed, .inr ⟨missing, rfl⟩, fun l' _ => ?_⟩
    rw [get?_erase t below]
    split
    · next eq => rw [eq, there']
    · next apart => exact h.get?_eq found apart
  | some e' =>
    have found' := find_eq_ok_iff.mpr ⟨located', there', .inr named⟩
    obtain ⟨content', executable', rfl⟩ := h.right l e' found'
    have removed' : u.removeFile cwd p = .ok (u.erase l) := by
      rw [removeFile_of_locate located', there']
      exact if_pos named
    refine ⟨t.erase l, u.erase l, .inl removed, .inl removed', fun l' _ => ?_⟩
    rw [get?_erase t below, get?_erase u below]
    split
    · rfl
    · next apart => exact h.get?_eq found apart

/-- Clearing the path makes the trees the same. If that fails, they were the same before. -/
theorem cleared (h : DifferAt cwd p t u) :
    (∃ t' u', Cleared cwd p t t' ∧ Cleared cwd p u u' ∧ Same t' u') ∨
      ∃ fault, fault ≠ .notFound ∧ t.removeFile cwd p = .error fault ∧
        u.removeFile cwd p = .error fault ∧ Same t u := by
  by_cases found : ∃ l e, t.find cwd p = .ok (l, e)
  · obtain ⟨l, e, found⟩ := found
    exact .inl (h.cleared_of_found found)
  · by_cases found' : ∃ l e, u.find cwd p = .ok (l, e)
    · obtain ⟨l, e, found'⟩ := found'
      obtain ⟨u', t', clear', clear, same⟩ := h.symm.cleared_of_found found'
      exact .inl ⟨t', u', clear, clear', same.symm⟩
    · have same : Same t u := fun l _ =>
        h.elsewhere l (fun e eq => found ⟨l, e, eq⟩) fun e eq => found' ⟨l, e, eq⟩
      have after := removeFile_congr same (covers_all cwd p)
      rcases ht : t.removeFile cwd p with fault | t' <;>
        rcases hu : u.removeFile cwd p with fault' | u' <;> rw [ht, hu] at after
      · obtain rfl : fault = fault' := after
        by_cases missing : fault = .notFound
        · subst missing
          exact .inl ⟨t, u, .inr ⟨ht, rfl⟩, .inr ⟨hu, rfl⟩, same⟩
        · exact .inr ⟨fault, missing, rfl, rfl, same⟩
      · exact after.elim
      · exact after.elim
      · exact .inl ⟨t', u', .inl ht, .inl hu, after⟩

end DifferAt

/-- Nothing is left at a path that was cleared. -/
theorem Cleared.isPresent_eq_false (h : Cleared cwd p t t') : t'.isPresent cwd p = false := by
  rw [isPresent]
  cases found : t'.find cwd p with
  | error fault => rfl
  | ok r =>
    obtain ⟨l, e⟩ := r
    obtain ⟨located, there, last⟩ := find_eq_ok_iff.mp found
    rcases h with removed | ⟨missing, rfl⟩
    · obtain ⟨l', located', below, rfl⟩ := removeFile_eq_ok removed
      obtain rfl : l' = l := (goal_of_locate located').symm.trans (goal_of_locate located)
      rw [get?_erase t below, if_pos rfl] at there
      cases there
    · rw [removeFile_of_locate located, there] at missing
      cases e with
      | directory => cases missing
      | file | program | sink =>
        rw [if_pos (last.resolve_left (by simp))] at missing
        cases missing

end CoverageMatrix.Files.Tree
