/-!
Environment variables: a finite map from names to values, kept sorted by name. Two maps with the
same values are the same map.
-/
namespace CoverageMatrix

/-- Environment variables, sorted by name and each name once. -/
structure EnvVars where
  entries : List (String × String)
  sorted : entries.Pairwise (fun a b => a.1 < b.1)

namespace EnvVars

instance : DecidableEq EnvVars := fun a b =>
  if h : a.entries = b.entries then
    .isTrue (by cases a; cases b; simp_all)
  else .isFalse fun e => h (e ▸ rfl)

def empty : EnvVars := ⟨[], .nil⟩

instance : Inhabited EnvVars := ⟨empty⟩

def get? (vars : EnvVars) (name : String) : Option String :=
  vars.entries.lookup name

/-- Puts a pair into a sorted list, in place of one with the same name. -/
def insertEntry (name value : String) : List (String × String) → List (String × String)
  | [] => [(name, value)]
  | (n, v) :: rest =>
    if name < n then (name, value) :: (n, v) :: rest
    else if name = n then (name, value) :: rest
    else (n, v) :: insertEntry name value rest

theorem mem_insertEntry {name value : String} {l : List (String × String)} {e : String × String}
    (h : e ∈ insertEntry name value l) : e = (name, value) ∨ e ∈ l := by
  induction l with
  | nil => simpa [insertEntry] using h
  | cons a rest ih =>
    obtain ⟨n, v⟩ := a
    simp only [insertEntry] at h
    split at h
    · simpa using h
    · split at h
      · rcases List.mem_cons.1 h with h | h
        · exact .inl h
        · exact .inr (List.mem_cons_of_mem _ h)
      · rcases List.mem_cons.1 h with h | h
        · exact .inr (h ▸ List.mem_cons_self)
        · rcases ih h with h | h
          · exact .inl h
          · exact .inr (List.mem_cons_of_mem _ h)

theorem sorted_insertEntry {name value : String} {l : List (String × String)}
    (h : l.Pairwise (fun a b => a.1 < b.1)) :
    (insertEntry name value l).Pairwise (fun a b => a.1 < b.1) := by
  induction l with
  | nil => simp [insertEntry]
  | cons a rest ih =>
    obtain ⟨n, v⟩ := a
    rw [List.pairwise_cons] at h
    simp only [insertEntry]
    split
    · rename_i hlt
      refine List.pairwise_cons.2 ⟨fun e he => ?_, List.pairwise_cons.2 h⟩
      rcases List.mem_cons.1 he with rfl | he
      · exact hlt
      · exact String.lt_trans hlt (h.1 e he)
    · split
      · rename_i heq
        subst heq
        exact List.pairwise_cons.2 ⟨h.1, h.2⟩
      · rename_i hnlt hne
        refine List.pairwise_cons.2 ⟨fun e he => ?_, ih h.2⟩
        rcases mem_insertEntry he with rfl | he
        · exact Std.lt_of_le_of_ne (Std.not_lt.1 hnlt) (Ne.symm hne)
        · exact h.1 e he

def insert (vars : EnvVars) (name value : String) : EnvVars :=
  ⟨insertEntry name value vars.entries, sorted_insertEntry vars.sorted⟩

/-- The variables that a list sets, later pairs winning. -/
def ofList (pairs : List (String × String)) : EnvVars :=
  pairs.foldl (fun vars p => vars.insert p.1 p.2) empty

/-- The variables of `vars` with those of `extra` set on top of them. -/
def overlay (vars extra : EnvVars) : EnvVars :=
  extra.entries.foldl (fun vars p => vars.insert p.1 p.2) vars

theorem lookup_insertEntry (name value other : String) (l : List (String × String)) :
    (insertEntry name value l).lookup other =
      if other = name then some value else l.lookup other := by
  induction l with
  | nil =>
    by_cases h : other = name
    · simp [insertEntry, h]
    · simp [insertEntry, List.lookup_cons, beq_false_of_ne h, h]
  | cons a rest ih =>
    obtain ⟨n, v⟩ := a
    have beq_false {x y : String} (h : ¬x = y) : (x == y) = false := by simpa using h
    simp only [insertEntry]
    by_cases h : other = name
    · subst h
      split
      · simp
      · split
        · simp
        · rename_i hne
          simp [List.lookup_cons, ih, beq_false hne]
    · split
      · simp [List.lookup_cons, beq_false h]
      · split
        · rename_i heq
          subst heq
          simp [List.lookup_cons, beq_false h]
        · simp only [List.lookup_cons, ih, if_neg h]

@[simp] theorem get?_insert (vars : EnvVars) (name value other : String) :
    (vars.insert name value).get? other = if other = name then some value else vars.get? other :=
  lookup_insertEntry name value other vars.entries

@[simp] theorem get?_empty (name : String) : empty.get? name = none := rfl

theorem lookup_cons_self (name value : String) (l : List (String × String)) :
    ((name, value) :: l).lookup name = some value := by
  simp

theorem lookup_cons_of_ne {name other : String} (h : other ≠ name) (value : String)
    (l : List (String × String)) : ((name, value) :: l).lookup other = l.lookup other := by
  simp [List.lookup_cons, beq_false_of_ne h]

theorem lookup_eq_none_of_lt {name : String} {l : List (String × String)}
    (h : ∀ e ∈ l, name < e.1) : l.lookup name = none := by
  rw [List.lookup_eq_none_iff]
  intro e he
  exact bne_iff_ne.2 fun hn => Std.lt_irrefl (a := e.1) (hn ▸ h e he : e.1 < e.1)

theorem get?_foldl_insert (pairs : List (String × String))
    (distinct : pairs.Pairwise fun a b => a.1 ≠ b.1) (vars : EnvVars) (name : String) :
    (pairs.foldl (fun vars p => vars.insert p.1 p.2) vars).get? name =
      (pairs.lookup name).or (vars.get? name) := by
  induction pairs generalizing vars with
  | nil => rfl
  | cons p rest ih =>
    obtain ⟨n, v⟩ := p
    obtain ⟨apart, distinct⟩ := List.pairwise_cons.1 distinct
    rw [List.foldl_cons, ih distinct, get?_insert]
    by_cases h : name = n
    · subst h
      have missing : rest.lookup name = none :=
        List.lookup_eq_none_iff.2 fun e he => bne_iff_ne.2 (apart e he)
      rw [missing, lookup_cons_self, if_pos rfl]
      rfl
    · rw [lookup_cons_of_ne h, if_neg h]

theorem distinct (vars : EnvVars) : vars.entries.Pairwise fun a b => a.1 ≠ b.1 :=
  vars.sorted.imp fun {a b} (lt : a.1 < b.1) (same : a.1 = b.1) =>
    Std.lt_irrefl (a := b.1) (same ▸ lt : b.1 < b.1)

/-- The variables laid on top win. -/
@[simp] theorem get?_overlay (vars extra : EnvVars) (name : String) :
    (vars.overlay extra).get? name = (extra.get? name).or (vars.get? name) :=
  get?_foldl_insert extra.entries extra.distinct vars name

/-- If two sorted lists agree at the first name of one, the other does not begin after it. -/
theorem not_lt_of_lookup {n m v u : String} {l k : List (String × String)}
    (after : ∀ e ∈ k, m < e.1) (same : ((n, v) :: l).lookup n = ((m, u) :: k).lookup n) :
    ¬n < m := by
  intro lt
  have ne : n ≠ m := fun h => Std.lt_irrefl (a := m) (h ▸ lt)
  rw [lookup_cons_self, lookup_cons_of_ne ne,
    lookup_eq_none_of_lt fun e he => String.lt_trans lt (after e he)] at same
  cases same

theorem eq_of_lookup {l k : List (String × String)} (hl : l.Pairwise fun a b => a.1 < b.1)
    (hk : k.Pairwise fun a b => a.1 < b.1) (h : ∀ name, l.lookup name = k.lookup name) :
    l = k := by
  induction l generalizing k with
  | nil =>
    cases k with
    | nil => rfl
    | cons e k => cases (h e.1).trans (lookup_cons_self e.1 e.2 k)
  | cons d l ih =>
    obtain ⟨n, v⟩ := d
    cases k with
    | nil => cases (lookup_cons_self n v l).symm.trans (h n)
    | cons e k =>
      obtain ⟨m, u⟩ := e
      have hd := List.pairwise_cons.1 hl
      have he := List.pairwise_cons.1 hk
      have first : n = m :=
        Std.le_antisymm (Std.not_lt.1 (not_lt_of_lookup hd.1 (h m).symm))
          (Std.not_lt.1 (not_lt_of_lookup he.1 (h n)))
      subst first
      have value : some v = some u :=
        (lookup_cons_self n v l).symm.trans ((h n).trans (lookup_cons_self n u k))
      cases value
      rw [ih hd.2 he.2 fun name => ?_]
      by_cases hn : name = n
      · subst hn
        rw [lookup_eq_none_of_lt hd.1, lookup_eq_none_of_lt he.1]
      · rw [← lookup_cons_of_ne hn v l, h, lookup_cons_of_ne hn]

/-- Two maps with the same values are the same map. -/
theorem ext_get? {a b : EnvVars} (h : ∀ name, a.get? name = b.get? name) : a = b := by
  obtain ⟨l, hl⟩ := a
  obtain ⟨k, hk⟩ := b
  cases eq_of_lookup hl hk h
  rfl

theorem empty_overlay (vars : EnvVars) : empty.overlay vars = vars := by
  refine ext_get? fun name => ?_
  rw [get?_overlay, get?_empty, Option.or_none]

end EnvVars
end CoverageMatrix
