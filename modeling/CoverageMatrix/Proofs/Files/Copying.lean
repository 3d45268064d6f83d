import CoverageMatrix.Proofs.Except
import CoverageMatrix.Proofs.Files.Difference

/-!
# Copying a file

A copy changes nothing but the location to which the path of its target leads. It holds what the
source held, unless that location is the source's own: a target is emptied before the source is
read.
-/
namespace CoverageMatrix.Files

/-- The location to which a path leads, if everything on the way is a directory. -/
def placeOf (cwd : Location) (p : Path) : Location :=
  goal (origin cwd p) p.components

theorem Entry.bytes_copied (e : Entry) (executable : Bool) :
    (e.copied executable).bytes = e.bytes := by
  cases e <;> rfl

theorem Entry.isFile_copied {e : Entry} (h : e.isFile = true) (executable : Bool) :
    (e.copied executable).isFile = true := by
  cases e with
  | file | program => rfl
  | directory | sink => cases h

namespace Tree

variable {t t' : Tree} {cwd l : Location} {p q : Path} {e : Entry}

/-- What a file at a location holds. -/
def bytesAt (t : Tree) (l : Location) : Option ByteArray :=
  (t.get? l).map Entry.bytes

def isExecutableAt (t : Tree) (l : Location) : Bool :=
  (t.get? l).any Entry.isExecutable

theorem AgreeOn.bytesAt {S : Location → Prop} (h : AgreeOn S t t') (mem : S l) :
    t.bytesAt l = t'.bytesAt l := by
  rw [Tree.bytesAt, Tree.bytesAt, h l mem]

theorem AgreeOn.isExecutableAt {S : Location → Prop} (h : AgreeOn S t t') (mem : S l) :
    t.isExecutableAt l = t'.isExecutableAt l := by
  rw [Tree.isExecutableAt, Tree.isExecutableAt, h l mem]

theorem agreeOn_put (t : Tree) (below : l ≠ []) (e : Entry) : AgreeOn (· ≠ l) t (t.put l e) := by
  intro l' other
  rw [get?_put t below, if_neg other]

/-! ## Opening a file anew -/

/-- A file that is opened anew is empty, unless it swallows what is written to it. -/
theorem openNew_eq_ok {executable : Bool} (h : t.openNew cwd p executable = .ok (l, t')) :
    t.locate cwd p = .ok l ∧ ending p = .name ∧ t.get? l ≠ some .directory ∧
      (t.get? l = some .sink ∧ t' = t ∨
        t.get? l ≠ some .sink ∧ ∃ x, t' = t.put l (.file .empty x)) := by
  obtain ⟨place, located, h⟩ := ok_of_bind h
  obtain ⟨noSlash, h⟩ := guard_eq_ok_iff.mp h
  split at h
  · cases h
  · next content x there =>
    obtain ⟨named, h⟩ := ite_throw_eq_ok_iff.mp h
    cases h
    exact ⟨located, named, by simp [there], .inr ⟨by simp [there], x, rfl⟩⟩
  · next program there =>
    obtain ⟨named, h⟩ := ite_throw_eq_ok_iff.mp h
    cases h
    exact ⟨located, named, by simp [there], .inr ⟨by simp [there], true, rfl⟩⟩
  · next there =>
    obtain ⟨named, h⟩ := ite_throw_eq_ok_iff.mp h
    cases h
    exact ⟨located, named, by simp [there], .inl ⟨there, rfl⟩⟩
  · next there =>
    obtain ⟨noDirectory, h⟩ := guard_eq_ok_iff.mp h
    have named : ending p = .name := by
      cases ended : ending p with
      | name => rfl
      | slash => exact absurd ended noSlash
      | directory => exact absurd ended noDirectory
    split at h
    · cases h
      exact ⟨located, named, by simp [there], .inr ⟨by simp [there], executable, rfl⟩⟩
    · cases h
    · cases h

/-! ## Copying -/

/-- A target with a copy in it that can be run. -/
structure HoldsCopy (cwd : Location) (source target : Path) (t t' : Tree) : Prop where
  elsewhere : AgreeOn (· ≠ placeOf cwd target) t t'
  /-- The source was a regular file, and the copy has its content, or none if it is the source. -/
  copied : ∃ e, t.get? (placeOf cwd source) = some e ∧ e.isFile = true ∧
    (t.get? (placeOf cwd target) = some .sink ∧ t'.get? (placeOf cwd target) = some .sink ∨
      t'.isExecutableAt (placeOf cwd target) = true ∧
      t'.bytesAt (placeOf cwd target) =
        some (if placeOf cwd target = placeOf cwd source then .empty else e.bytes))

theorem setExecutable_of_file {executable x : Bool} {content : ByteArray}
    (found : t.find cwd p = .ok (l, .file content x)) :
    t.setExecutable cwd p executable = .ok (t.put l (.file content executable)) := by
  rw [setExecutable, found]
  rfl

theorem setExecutable_of_other {executable : Bool} (found : t.find cwd p = .ok (l, e))
    (other : ∀ content x, e ≠ .file content x) : t.setExecutable cwd p executable = .ok t := by
  rw [setExecutable, found]
  cases e with
  | file content x => exact absurd rfl (other content x)
  | directory | program | sink => rfl

/-- What a copy reads once its target is empty: what there was, unless the target is its source. -/
theorem exists_get?_emptied {s : Location} (there : t.get? s = some e) (regular : e.isFile = true)
    (below : l ≠ []) (x : Bool) :
    ∃ source, (t.put l (.file .empty x)).get? s = some source ∧ source.isFile = true ∧
      source.bytes = if l = s then .empty else e.bytes := by
  rw [get?_put t below]
  by_cases same : s = l
  · exact ⟨.file .empty x, if_pos same, rfl, (if_pos same.symm).symm⟩
  · exact ⟨e, (if_neg same).trans there, regular, (if_neg (Ne.symm same)).symm⟩

/-- A copy that succeeds had a regular file to read, and changed nothing but its target. -/
theorem copy_eq_ok (h : t.copy cwd p q = .ok t') :
    ∃ s e, t.find cwd p = .ok (s, e) ∧ e.isFile = true ∧
      ∃ l, t.locate cwd q = .ok l ∧ ending q = .name ∧ t.get? l ≠ some .directory ∧
        (t.get? l = some .sink ∧ t' = t ∨ t.get? l ≠ some .sink ∧ ∃ e', e'.isFile = true ∧
          e'.bytes = (if l = s then .empty else e.bytes) ∧ t'.get? l = some e' ∧
            AgreeOn (· ≠ l) t t') := by
  obtain ⟨⟨s, e⟩, found, checked⟩ := ok_of_bind h
  obtain ⟨isFile, opening⟩ := guard_eq_ok_iff.mp checked
  obtain ⟨⟨l, u⟩, opened, copying⟩ := ok_of_bind opening
  have regular : e.isFile = true := by simpa using isFile
  obtain ⟨located, named, notDirectory, rest⟩ := openNew_eq_ok opened
  obtain ⟨-, there, -⟩ := find_eq_ok_iff.mp found
  refine ⟨s, e, found, regular, l, located, named, notDirectory, ?_⟩
  dsimp only at copying
  rcases rest with ⟨isSink, rfl⟩ | ⟨notSink, x, rfl⟩
  · rw [isSink] at copying
    cases copying
    exact .inl ⟨isSink, rfl⟩
  · have below : l ≠ [] := ne_root_of_get? rfl notDirectory
    have emptied : (t.put l (.file .empty x)).get? l = some (.file .empty x) := by
      rw [get?_put t below, if_pos rfl]
    obtain ⟨source, read, regular', bytes⟩ := exists_get?_emptied there regular below x
    rw [emptied, read] at copying
    cases copying
    refine .inr ⟨notSink, source.copied e.isExecutable, Entry.isFile_copied regular' _, ?_, ?_, ?_⟩
    · rw [Entry.bytes_copied, bytes]
    · rw [get?_put _ below, if_pos rfl]
    · exact (agreeOn_put t below _).trans (agreeOn_put _ below _)

theorem locate_of_agreeOn (h : AgreeOn (· ≠ l) t t') (notDirectory : t.get? l ≠ some .directory)
    {place : Location} (located : t.locate cwd p = .ok place) : t'.locate cwd p = .ok place := by
  refine locate_of_directories (fun l' directory => ?_) located
  have other : l' ≠ l := by
    rintro rfl
    exact notDirectory directory
  rw [← h l' other]
  exact directory

/-- A copy can always be made executable. -/
theorem copy_setExecutable (h : t.copy cwd p q = .ok t') :
    ∃ u, t'.setExecutable cwd q true = .ok u ∧ HoldsCopy cwd p q t u := by
  obtain ⟨s, e, found, regular, l, located, named, notDirectory, rest⟩ := copy_eq_ok h
  obtain ⟨located', there, -⟩ := find_eq_ok_iff.mp found
  obtain rfl : placeOf cwd q = l := goal_of_locate located
  obtain rfl : placeOf cwd p = s := goal_of_locate located'
  rcases rest with ⟨isSink, rfl⟩ | ⟨notSink, e', regular', bytes, copied, elsewhere⟩
  · have target := find_eq_ok_iff.mpr ⟨located, isSink, .inr named⟩
    exact ⟨t', setExecutable_of_other target nofun, .refl _ _, e, there, regular, .inl ⟨isSink, isSink⟩⟩
  · have target := find_eq_ok_iff.mpr
      ⟨locate_of_agreeOn elsewhere notDirectory located, copied, .inr named⟩
    have below : placeOf cwd q ≠ [] := ne_root_of_get? rfl notDirectory
    cases e' with
    | directory | sink => cases regular'
    | program name =>
      refine ⟨t', setExecutable_of_other target nofun, elsewhere, e, there, regular, .inr ⟨?_, ?_⟩⟩
      · rw [isExecutableAt, copied]
        rfl
      · rw [bytesAt, copied]
        exact congrArg some bytes
    | file content x =>
      have put : (t'.put (placeOf cwd q) (.file content true)).get? (placeOf cwd q) =
          some (.file content true) := by
        rw [get?_put t' below, if_pos rfl]
      refine ⟨_, setExecutable_of_file target, elsewhere.trans (agreeOn_put t' below _), e, there,
        regular, .inr ⟨?_, ?_⟩⟩
      · rw [isExecutableAt, put]
        rfl
      · rw [bytesAt, put]
        exact congrArg some bytes

/-- What cannot be read cannot be copied. -/
theorem copy_of_unread {fault : Fault} (h : t.read cwd p = .error fault) (q : Path) :
    ∃ fault', t.copy cwd p q = .error fault' := by
  rw [read] at h
  rw [copy]
  cases found : t.find cwd p with
  | error fault' => exact ⟨fault', rfl⟩
  | ok r =>
    obtain ⟨l, e⟩ := r
    rw [found] at h
    cases e with
    | directory => exact ⟨.notRegular, rfl⟩
    | file | program | sink => cases h

end Tree
end CoverageMatrix.Files
