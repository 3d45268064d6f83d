import CoverageMatrix.Files.Tree

/-!
# Trees that agree where a path leads

A file operation looks at the locations on the way along its path and at no others. On trees that
agree there it comes to the same, and the trees agree again afterwards; what it changes is at the
end of the way. The way and its end are read off the path alone (`way`, `goal`).
-/
namespace CoverageMatrix.Files

/-! ## The way along a path -/

/-- Where names lead from a directory, if everything on the way is a directory. -/
def goal (start : Location) : List String → Location
  | [] => start
  | name :: rest => goal (if name = ".." then start.tail else name :: start) rest

/-- The directories from which names lead on, and the location to which they lead. -/
def way (start : Location) : List String → List Location
  | [] => [start]
  | name :: rest => start :: way (if name = ".." then start.tail else name :: start) rest

/-- Where the names of a path begin, seen from a directory. -/
def origin (cwd : Location) (p : Path) : Location :=
  if p.isAbsolute then [] else cwd

/-- Whether a set of locations has all that lies on the way along a path. -/
def Covers (S : Location → Prop) (cwd : Location) (p : Path) : Prop :=
  ∀ l ∈ way (origin cwd p) p.components, S l

theorem goal_mem_way (start : Location) (names : List String) :
    goal start names ∈ way start names := by
  induction names generalizing start with
  | nil => exact List.mem_singleton.mpr rfl
  | cons name rest ih => exact List.mem_cons_of_mem _ (ih _)

theorem Covers.goal {S : Location → Prop} {cwd : Location} {p : Path} (h : Covers S cwd p) :
    S (goal (origin cwd p) p.components) :=
  h _ (goal_mem_way _ _)

theorem covers_all (cwd : Location) (p : Path) : Covers (fun _ => True) cwd p :=
  fun _ _ => trivial

namespace Tree

/-- Two trees hold the same at the locations of a set. -/
def AgreeOn (S : Location → Prop) (t u : Tree) : Prop :=
  ∀ l, S l → t.get? l = u.get? l

/-- Two trees hold the same everywhere. -/
abbrev Same (t u : Tree) : Prop :=
  AgreeOn (fun _ => True) t u

/-- Two changes fail in the same way, or leave trees that agree. -/
def AgreeAfter (S : Location → Prop) : Except Fault Tree → Except Fault Tree → Prop
  | .error fault, .error fault' => fault = fault'
  | .ok t, .ok u => AgreeOn S t u
  | _, _ => False

variable {S : Location → Prop} {t u v : Tree} {cwd l : Location} {p : Path}

theorem AgreeOn.refl (S : Location → Prop) (t : Tree) : AgreeOn S t t :=
  fun _ _ => rfl

theorem AgreeOn.symm (h : AgreeOn S t u) : AgreeOn S u t :=
  fun l hl => (h l hl).symm

theorem AgreeOn.trans (h : AgreeOn S t u) (g : AgreeOn S u v) : AgreeOn S t v :=
  fun l hl => (h l hl).trans (g l hl)

theorem AgreeOn.erase (h : AgreeOn S t u) (hl : l ≠ []) : AgreeOn S (t.erase l) (u.erase l) := by
  intro l' mem
  rw [get?_erase t hl, get?_erase u hl, h l' mem]

theorem AgreeOn.put (h : AgreeOn S t u) (hl : l ≠ []) (e : Entry) :
    AgreeOn S (t.put l e) (u.put l e) := by
  intro l' mem
  rw [get?_put t hl, get?_put u hl, h l' mem]

/-- Only the root is bound to be a directory. -/
theorem ne_root_of_get? {o : Option Entry} (h : t.get? l = o) (ho : o ≠ some .directory) :
    l ≠ [] := by
  rintro rfl
  exact ho h.symm

/-! ## Walking -/

theorem walk_congr {start : Location} {names : List String}
    (h : ∀ l ∈ way start names, t.get? l = u.get? l) : t.walk start names = u.walk start names := by
  induction names generalizing start with
  | nil => rfl
  | cons name rest ih =>
    have here : t.get? start = u.get? start := h start List.mem_cons_self
    have further : ∀ l ∈ way (if name = ".." then start.tail else name :: start) rest,
        t.get? l = u.get? l := fun l mem => h l (List.mem_cons_of_mem _ mem)
    rw [walk, walk, here]
    by_cases up : name = ".."
    · rw [if_pos up] at further
      simp only [if_pos up, ih further]
    · rw [if_neg up] at further
      simp only [if_neg up, ih further]

theorem goal_of_walk {start : Location} {names : List String} (h : t.walk start names = .ok l) :
    goal start names = l := by
  induction names generalizing start with
  | nil => exact Except.ok.inj h
  | cons name rest ih =>
    rw [walk] at h
    rw [goal]
    split at h
    · cases h
    · split at h
      · next up => simpa only [if_pos up] using ih h
      · next up =>
        split at h
        · cases h
        · simpa only [if_neg up] using ih h
    · cases h

theorem locate_congr (h : AgreeOn S t u) (covers : Covers S cwd p) :
    t.locate cwd p = u.locate cwd p := by
  have walks : t.walk (origin cwd p) p.components = u.walk (origin cwd p) p.components :=
    walk_congr fun l mem => h l (covers l mem)
  rw [locate, locate]
  split
  · rfl
  · split
    · rfl
    · split
      · rfl
      · exact walks

theorem goal_of_locate (h : t.locate cwd p = .ok l) : goal (origin cwd p) p.components = l := by
  rw [locate] at h
  split at h
  · cases h
  · split at h
    · cases h
    · split at h
      · cases h
      · exact goal_of_walk h

/-! ## Reading -/

theorem find_congr (h : AgreeOn S t u) (covers : Covers S cwd p) :
    t.find cwd p = u.find cwd p := by
  rw [find, find, locate_congr h covers]
  cases located : u.locate cwd p with
  | error fault => rfl
  | ok l =>
    have there : t.get? l = u.get? l := goal_of_locate located ▸ h _ covers.goal
    simp only [bind, Except.bind, there]

theorem find_eq_ok_iff {e : Entry} : t.find cwd p = .ok (l, e) ↔
    t.locate cwd p = .ok l ∧ t.get? l = some e ∧ (e = .directory ∨ ending p = .name) := by
  rw [find]
  cases located : t.locate cwd p with
  | error fault => simp [bind, Except.bind]
  | ok l' =>
    simp only [bind, Except.bind, pure, Except.pure, throw, throwThe, MonadExceptOf.throw,
      Except.ok.injEq]
    split
    · next there => grind
    · next there => grind
    · next e' notDirectory there =>
      split <;> grind

theorem read_congr (h : AgreeOn S t u) (covers : Covers S cwd p) :
    t.read cwd p = u.read cwd p := by
  rw [read, read, find_congr h covers]

theorem isPresent_congr (h : AgreeOn S t u) (covers : Covers S cwd p) :
    t.isPresent cwd p = u.isPresent cwd p := by
  rw [isPresent, isPresent, find_congr h covers]

/-! ## Removing -/

/-- What removing a file comes to, once its location is known. -/
theorem removeFile_of_locate (located : t.locate cwd p = .ok l) :
    t.removeFile cwd p = match t.get? l with
      | none => .error .notFound
      | some .directory => .error .isDirectory
      | some _ => if ending p = .name then .ok (t.erase l) else .error .notDirectory := by
  rw [removeFile, located]
  rfl

theorem removeFile_of_not_located {fault : Fault} (h : t.locate cwd p = .error fault) :
    t.removeFile cwd p = .error fault := by
  rw [removeFile, h]
  rfl

/-- A file that is removed was where its path leads, below the root. -/
theorem removeFile_eq_ok {t' : Tree} (h : t.removeFile cwd p = .ok t') :
    ∃ l, t.locate cwd p = .ok l ∧ l ≠ [] ∧ t' = t.erase l := by
  cases located : t.locate cwd p with
  | error fault =>
    rw [removeFile_of_not_located located] at h
    cases h
  | ok l =>
    rw [removeFile_of_locate located] at h
    split at h
    · cases h
    · cases h
    · next e notDirectory there =>
      split at h
      · have below : l ≠ [] := ne_root_of_get? there fun eq => notDirectory (Option.some.inj eq)
        exact ⟨l, rfl, below, (Except.ok.inj h).symm⟩
      · cases h

theorem removeFile_congr (h : AgreeOn S t u) (covers : Covers S cwd p) :
    AgreeAfter S (t.removeFile cwd p) (u.removeFile cwd p) := by
  cases located : u.locate cwd p with
  | error fault =>
    have located' := (locate_congr h covers).trans located
    rw [removeFile_of_not_located located', removeFile_of_not_located located]
    rfl
  | ok l =>
    have located' := (locate_congr h covers).trans located
    have same : t.get? l = u.get? l := goal_of_locate located ▸ h _ covers.goal
    rw [removeFile_of_locate located', removeFile_of_locate located, same]
    split
    · rfl
    · rfl
    · next e notDirectory there =>
      split
      · have below : l ≠ [] := ne_root_of_get? there fun eq => notDirectory (Option.some.inj eq)
        exact h.erase below
      · rfl

/-- Removing a file changes nothing but the location to which its path leads. -/
theorem agreeOn_removeFile {t' : Tree} (h : t.removeFile cwd p = .ok t')
    (apart : ¬S (goal (origin cwd p) p.components)) : AgreeOn S t t' := by
  obtain ⟨l, located, below, rfl⟩ := removeFile_eq_ok h
  rw [goal_of_locate located] at apart
  intro l' mem
  have other : l' ≠ l := by
    rintro rfl
    exact apart mem
  rw [get?_erase t below, if_neg other]

/-! ## Changing trees that hold the same -/

theorem Same.openNew (h : Same t u) (cwd : Location) (p : Path) (executable : Bool) :
    (∃ fault, t.openNew cwd p executable = .error fault ∧
      u.openNew cwd p executable = .error fault) ∨
    ∃ l t' u', t.openNew cwd p executable = .ok (l, t') ∧
      u.openNew cwd p executable = .ok (l, u') ∧ Same t' u' := by
  unfold Tree.openNew
  rw [locate_congr h (covers_all cwd p)]
  cases u.locate cwd p with
  | error fault => exact .inl ⟨fault, rfl, rfl⟩
  | ok l =>
    simp only [bind, Except.bind, pure, Except.pure, throw, throwThe, MonadExceptOf.throw]
    rw [h l trivial, h l.tail trivial]
    by_cases slash : ending p = .slash
    · exact .inl ⟨_, if_pos slash, if_pos slash⟩
    · simp only [if_neg slash]
      cases there : u.get? l with
      | none =>
        have below : l ≠ [] := ne_root_of_get? there (by simp)
        by_cases directory : ending p = .directory
        · exact .inl ⟨_, if_pos directory, if_pos directory⟩
        · simp only [if_neg directory]
          rcases u.get? l.tail with _ | _ | _ | _ | _
          · exact .inl ⟨_, rfl, rfl⟩
          · exact .inl ⟨_, rfl, rfl⟩
          · exact .inr ⟨l, _, _, rfl, rfl, h.put below _⟩
          · exact .inl ⟨_, rfl, rfl⟩
          · exact .inl ⟨_, rfl, rfl⟩
      | some e =>
        cases e with
        | directory => exact .inl ⟨_, rfl, rfl⟩
        | file content x | program name =>
          have below : l ≠ [] := ne_root_of_get? there (by simp)
          by_cases named : ending p = .name
          · exact .inr ⟨l, _, _, if_pos named, if_pos named, h.put below _⟩
          · exact .inl ⟨_, if_neg named, if_neg named⟩
        | sink =>
          by_cases named : ending p = .name
          · exact .inr ⟨l, _, _, if_pos named, if_pos named, h⟩
          · exact .inl ⟨_, if_neg named, if_neg named⟩

theorem Same.fill (h : Same t u) (l : Location) (content : ByteArray) :
    Same (t.fill l content) (u.fill l content) := by
  unfold Tree.fill
  rw [h l trivial]
  split
  · next there => exact h.put (ne_root_of_get? there (by simp)) _
  · exact h

theorem Same.write (h : Same t u) (cwd : Location) (p : Path) (content : ByteArray) :
    AgreeAfter (fun _ => True) (t.write cwd p content) (u.write cwd p content) := by
  unfold Tree.write
  rcases h.openNew cwd p false with ⟨fault, ht, hu⟩ | ⟨l, t', u', ht, hu, same⟩
  · rw [ht, hu]
    rfl
  · rw [ht, hu]
    exact same.fill l content

theorem Same.setExecutable (h : Same t u) (cwd : Location) (p : Path) (executable : Bool) :
    AgreeAfter (fun _ => True) (t.setExecutable cwd p executable)
      (u.setExecutable cwd p executable) := by
  unfold Tree.setExecutable
  rw [find_congr h (covers_all cwd p)]
  cases found : u.find cwd p with
  | error fault => rfl
  | ok r =>
    obtain ⟨l, e⟩ := r
    cases e with
    | file content x =>
      obtain ⟨-, there, -⟩ := find_eq_ok_iff.mp found
      exact h.put (ne_root_of_get? there (by simp)) _
    | directory | program | sink => exact h

theorem Same.copy (h : Same t u) (cwd : Location) (source target : Path) :
    AgreeAfter (fun _ => True) (t.copy cwd source target) (u.copy cwd source target) := by
  unfold Tree.copy
  rw [find_congr h (covers_all cwd source)]
  cases u.find cwd source with
  | error fault => rfl
  | ok r =>
    obtain ⟨s, e⟩ := r
    simp only [bind, Except.bind, pure, Except.pure, throw, throwThe, MonadExceptOf.throw]
    split
    · rfl
    · rcases h.openNew cwd target e.isExecutable with ⟨fault, ht, hu⟩ | ⟨l, t', u', ht, hu, same⟩
      · rw [ht, hu]
        rfl
      · simp only [ht, hu, same l trivial, same s trivial]
        split
        · next there _ => exact same.put (ne_root_of_get? there (by simp)) _
        · exact same

end Tree
end CoverageMatrix.Files
