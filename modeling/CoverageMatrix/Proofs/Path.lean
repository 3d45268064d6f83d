import CoverageMatrix.Path
import Mathlib.Data.List.Basic

/-!
# Paths that name the same place

Two texts name the same place, wherever they are looked up, if they differ in repeated slashes, `.`
components and a slash at the end at most. Text put before two paths keeps them apart or together
as long as no slash is made to stand where it was not.
-/
namespace CoverageMatrix.Path

variable {a b : List Char} {c : Char} {p q cwd : Path} {s t : String}

/-- Paths that lead to the same place, as far as that can be told without looking. -/
def SamePlace (p q : Path) : Prop :=
  p.isAbsolute = q.isAbsolute ∧ p.components = q.components

/-! ## Names between slashes -/

theorem splitSlashes_ne_nil (a : List Char) : splitSlashes a ≠ [] := by
  cases a with
  | nil => simp [splitSlashes]
  | cons c rest =>
    rw [splitSlashes]
    split
    · simp
    · split <;> simp

theorem exists_splitSlashes (a : List Char) : ∃ first more, splitSlashes a = first :: more :=
  List.exists_cons_of_ne_nil (splitSlashes_ne_nil a)

@[simp] theorem splitSlashes_slash (a : List Char) :
    splitSlashes ('/' :: a) = [] :: splitSlashes a := by
  simp [splitSlashes]

theorem splitSlashes_cons {first : List Char} {more : List (List Char)} (hc : c ≠ '/')
    (h : splitSlashes a = first :: more) : splitSlashes (c :: a) = (c :: first) :: more := by
  simp [splitSlashes, hc, h]

theorem splitSlashes_of_notMem (h : '/' ∉ a) : splitSlashes a = [a] := by
  induction a with
  | nil => rfl
  | cons c rest ih =>
    simp only [List.mem_cons, not_or] at h
    exact splitSlashes_cons (Ne.symm h.1) (ih h.2)

theorem splitSlashes_append_slash (a b : List Char) :
    splitSlashes (a ++ '/' :: b) = splitSlashes a ++ splitSlashes b := by
  induction a with
  | nil => simp [splitSlashes]
  | cons c rest ih =>
    by_cases hc : c = '/'
    · simp [hc, ih]
    · obtain ⟨first, more, h⟩ := exists_splitSlashes rest
      have joined : splitSlashes (rest ++ '/' :: b) = first :: (more ++ splitSlashes b) := by
        rw [ih, h, List.cons_append]
      rw [List.cons_append, splitSlashes_cons hc joined, splitSlashes_cons hc h, List.cons_append]

/-- Text before a path lengthens its first name only. -/
theorem exists_splitSlashes_append (a : List Char) : ∃ front last, ∀ b first more,
    splitSlashes b = first :: more →
      splitSlashes (a ++ b) = front ++ (last ++ first) :: more := by
  induction a with
  | nil => exact ⟨[], [], fun _ _ _ h => h⟩
  | cons c rest ih =>
    obtain ⟨front, last, append⟩ := ih
    by_cases hc : c = '/'
    · refine ⟨[] :: front, last, fun b first more h => ?_⟩
      simp [hc, append b first more h]
    · cases front with
      | nil =>
        refine ⟨[], c :: last, fun b first more h => ?_⟩
        exact splitSlashes_cons hc (append b first more h)
      | cons n front =>
        refine ⟨(c :: n) :: front, last, fun b first more h => ?_⟩
        exact splitSlashes_cons hc (append b first more h)

theorem notMem_of_mem_splitSlashes {n : List Char} (h : n ∈ splitSlashes a) : '/' ∉ n := by
  induction a generalizing n with
  | nil => simp_all [splitSlashes]
  | cons c rest ih =>
    by_cases hc : c = '/'
    · rw [hc, splitSlashes_slash] at h
      rcases List.mem_cons.mp h with rfl | h
      · simp
      · exact ih h
    · obtain ⟨first, more, split⟩ := exists_splitSlashes rest
      rw [splitSlashes_cons hc split] at h
      rcases List.mem_cons.mp h with rfl | h
      · simp [Ne.symm hc, ih (split ▸ List.mem_cons_self)]
      · exact ih (split ▸ List.mem_cons_of_mem _ h)

/-! ## Components -/

/-- Texts that can stand between two slashes of a path and are not skipped there. -/
def IsName (n : String) : Prop :=
  n.toList ≠ [] ∧ n.toList ≠ ['.'] ∧ '/' ∉ n.toList

/-- The names among what stands between slashes. -/
def named (names : List (List Char)) : List String :=
  (names.filter fun n => n ≠ [] ∧ n ≠ ['.']).map String.ofList

theorem components_eq (p : Path) : p.components = named (splitSlashes p.text.toList) := rfl

@[simp] theorem named_nil : named [] = [] := rfl

@[simp] theorem named_append (names more : List (List Char)) :
    named (names ++ more) = named names ++ named more := by
  simp [named]

@[simp] theorem named_empty_cons (names : List (List Char)) : named ([] :: names) = named names := by
  simp [named]

theorem named_cons {n : List Char} {names : List (List Char)} (some : n ≠ []) (h : n ≠ ['.']) :
    named (n :: names) = String.ofList n :: named names := by
  simp [named, some, h]

theorem isName_of_mem_components {n : String} (h : n ∈ p.components) : IsName n := by
  simp only [components_eq, named, List.mem_map, List.mem_filter, decide_eq_true_eq] at h
  obtain ⟨chars, ⟨mem, some, h⟩, rfl⟩ := h
  simpa [IsName, some, h] using notMem_of_mem_splitSlashes mem

theorem components_of_isName {n : String} (h : IsName n) : (⟨n⟩ : Path).components = [n] := by
  obtain ⟨some, dotless, slashless⟩ := h
  rw [components_eq, splitSlashes_of_notMem slashless, named_cons some dotless]
  simp

theorem IsName.isAbsolute {n : String} (h : IsName n) : (⟨n⟩ : Path).isAbsolute = false := by
  obtain ⟨-, -, slashless⟩ := h
  rw [Path.isAbsolute, decide_eq_false_iff_not]
  exact fun head => slashless (List.mem_of_head? head)

/-! ## Joining -/

theorem isAbsolute_append (some : p.text ≠ "") : (p.append t).isAbsolute = p.isAbsolute := by
  have front : p.text.toList ≠ [] := by simpa using some
  simp [isAbsolute, append, List.head?_append_of_ne_nil _ front]

theorem append_append (p : Path) (s t : String) : (p.append s).append t = p.append (s ++ t) := by
  simp [append, String.append_assoc]

theorem join_text_ne (some : q.text ≠ "") : (p.join q).text ≠ "" := by
  rw [join]
  split
  · exact some
  · split <;> simp [some]

/-- Seen from a directory, a text behind a path still stands behind it. -/
theorem join_append (some : q.text ≠ "") : p.join (q.append t) = (p.join q).append t := by
  rw [join, join, isAbsolute_append some]
  split
  · rfl
  · split <;> simp [append, String.append_assoc]

theorem components_join_of_relative (h : q.isAbsolute = false) :
    (p.join q).components = p.components ++ q.components := by
  simp only [join, h, Bool.false_eq_true, if_false]
  split
  · next ends =>
    rcases ends with empty | ends
    · have none : p.text = "" := by simpa using empty
      simp [components_eq, none, splitSlashes]
    · -- a slash that is there already is counted once
      obtain ⟨front, eq⟩ : ∃ front, p.text.toList = front ++ ['/'] := by
        rw [endsInSlash, decide_eq_true_eq] at ends
        exact List.getLast?_eq_some_iff.mp ends
      have doubled : front ++ ['/'] = front ++ '/' :: [] := rfl
      simp only [components_eq, String.toList_append, eq, List.append_assoc, List.cons_append,
        List.nil_append, splitSlashes_append_slash, named_append]
      simp [splitSlashes]
  · simp [components_eq, splitSlashes_append_slash]

theorem isAbsolute_join_of_relative (h : q.isAbsolute = false) :
    (p.join q).isAbsolute = p.isAbsolute := by
  by_cases none : p.text = ""
  · simp_all [join, isAbsolute]
  · simp only [join, h, Bool.false_eq_true, if_false]
    split
    · exact isAbsolute_append none
    · exact (congrArg isAbsolute (append_append p "/" q.text)).trans (isAbsolute_append none)

/-! ## The path seen from the root -/

theorem foldl_join_names (names : List String) (h : ∀ n ∈ names, IsName n) :
    (names.foldl (fun q n => q.join ⟨n⟩) p).components = p.components ++ names ∧
      (names.foldl (fun q n => q.join ⟨n⟩) p).isAbsolute = p.isAbsolute := by
  induction names generalizing p with
  | nil => simp
  | cons n rest ih =>
    have name : IsName n := h n List.mem_cons_self
    obtain ⟨components, isAbsolute⟩ :=
      ih (p := p.join ⟨n⟩) fun m mem => h m (List.mem_cons_of_mem _ mem)
    refine ⟨?_, isAbsolute.trans (isAbsolute_join_of_relative name.isAbsolute)⟩
    rw [List.foldl_cons, components, components_join_of_relative name.isAbsolute,
      components_of_isName name, List.append_assoc, List.singleton_append]

theorem components_root (p : Path) : p.root.components = [] ∧ p.root.isAbsolute = true := by
  rw [root]
  split <;> simp [components_eq, isAbsolute, splitSlashes]

theorem absolute_of_empty (empty : p.text = "") (cwd : Path) : p.absolute cwd = p :=
  if_pos (String.isEmpty_iff.mpr empty)

theorem components_absolute (some : p.text ≠ "") :
    (p.absolute cwd).components =
        (if p.isAbsolute then [] else cwd.components) ++ p.components ∧
      (p.absolute cwd).isAbsolute = (p.isAbsolute || cwd.isAbsolute) := by
  have start : (if p.isAbsolute then p.root else cwd).components =
      (if p.isAbsolute then [] else cwd.components) ∧
      (if p.isAbsolute then p.root else cwd).isAbsolute = (p.isAbsolute || cwd.isAbsolute) := by
    cases p.isAbsolute <;> simp [components_root]
  obtain ⟨components, isAbsolute⟩ := foldl_join_names
    (p := if p.isAbsolute then p.root else cwd) p.components fun n => isName_of_mem_components
  have nothing : (⟨""⟩ : Path).isAbsolute = false := by simp [Path.isAbsolute]
  have empty : (⟨""⟩ : Path).components = [] := by simp [components_eq, splitSlashes]
  simp only [absolute, some, String.isEmpty_iff, if_false]
  split
  · rw [components_join_of_relative nothing, isAbsolute_join_of_relative nothing, components,
      isAbsolute, start.1, start.2, empty, List.append_nil]
    exact ⟨rfl, rfl⟩
  · rw [components, isAbsolute, start.1, start.2]
    exact ⟨rfl, rfl⟩

/-! ## Staying apart -/

theorem samePlace_absolute_iff (hp : p.text ≠ "") (hq : q.text ≠ "")
    (alike : p.isAbsolute = q.isAbsolute) :
    SamePlace (p.absolute cwd) (q.absolute cwd) ↔ SamePlace p q := by
  simp [SamePlace, components_absolute hp, components_absolute hq, alike]

/-- A path that goes on with a hyphen in the middle of a name is another one exactly where the
rest of it is. -/
theorem samePlace_append_iff (p : Path) (some : p.text ≠ "") (v w : String) :
    SamePlace (p.append ("-" ++ v)) (p.append ("-" ++ w)) ↔
      SamePlace ⟨"-" ++ v⟩ ⟨"-" ++ w⟩ := by
  obtain ⟨front, last, append⟩ := exists_splitSlashes_append p.text.toList
  have ends (v : String) : ∃ first more,
      (⟨"-" ++ v⟩ : Path).components = String.ofList ('-' :: first) :: more ∧
      (p.append ("-" ++ v)).components =
        named front ++ String.ofList (last ++ '-' :: first) :: more := by
    obtain ⟨first, more, split⟩ := exists_splitSlashes v.toList
    have hyphen : splitSlashes ('-' :: v.toList) = ('-' :: first) :: more :=
      splitSlashes_cons (by decide) split
    refine ⟨first, named more, ?_, ?_⟩
    · rw [components_eq, String.toList_append]
      exact (congrArg named hyphen).trans (named_cons (by simp) (by simp))
    · rw [components_eq, Path.append, String.toList_append, String.toList_append]
      refine (congrArg named (append _ _ _ hyphen)).trans ?_
      rw [named_append, named_cons (by simp) (by cases last <;> simp)]
  have relative (v : String) : (⟨"-" ++ v⟩ : Path).isAbsolute = false := by
    simp [isAbsolute]
  obtain ⟨first, more, eq, longer⟩ := ends v
  obtain ⟨first', more', eq', longer'⟩ := ends w
  simp [SamePlace, isAbsolute_append some, relative, eq, eq', longer, longer']

theorem samePlace_iff_of_slashless (hs : '/' ∉ s.toList) (ht : '/' ∉ t.toList) :
    SamePlace ⟨"-" ++ s⟩ ⟨"-" ++ t⟩ ↔ s = t := by
  have name (s : String) (h : '/' ∉ s.toList) : IsName ("-" ++ s) := by
    simp [IsName, h]
  simp [SamePlace, components_of_isName (name _ hs), components_of_isName (name _ ht),
    (name _ hs).isAbsolute, (name _ ht).isAbsolute]

end CoverageMatrix.Path
