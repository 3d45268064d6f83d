import Mathlib.Data.List.Nodup
import CoverageMatrix.Proofs.Toml.Layout

/-! Lines that orderly tables are laid out in fill a draft with just these tables. -/
namespace CoverageMatrix.Toml

/-! ## Tables inside a draft -/

theorem update_of_not_mem {k : String} {es : Entries} (new : k ∉ es.map (·.1))
    (f : Option Item → Option Item) :
    es.update k f = (f none).map fun i => es ++ [(k, i)] := by
  induction es with
  | nil => rfl
  | cons e es ih =>
    obtain ⟨k', i⟩ := e
    simp only [List.map_cons, List.mem_cons, not_or] at new
    rw [Entries.update, if_neg new.1, ih new.2, Option.map_map]
    rfl

theorem update_last {k : String} {es : Entries} (new : k ∉ es.map (·.1)) (i : Item)
    (f : Option Item → Option Item) :
    (es ++ [(k, i)]).update k f = (f (some i)).map fun i => es ++ [(k, i)] := by
  induction es with
  | nil => exact if_pos rfl
  | cons e es ih =>
    obtain ⟨k', i'⟩ := e
    simp only [List.map_cons, List.mem_cons, not_or] at new
    rw [List.cons_append, Entries.update, if_neg new.1, ih new.2, Option.map_map]
    rfl

theorem onLast_append {α : Type} (f : α → Option α) (l : List α) (a : α) :
    onLast f (l ++ [a]) = (f a).map fun a => l ++ [a] := by
  induction l with
  | nil => rfl
  | cons b l ih =>
    obtain ⟨c, rest, shape⟩ := List.exists_cons_of_ne_nil (List.append_ne_nil_of_right_ne_nil l
      (List.cons_ne_nil a []))
    rw [List.cons_append, shape, onLast, ← shape, ih, Option.map_map]
    · rfl
    · simp

theorem within_append (f : Entries → Option Entries) (path more : List String) :
    Entries.within f (path ++ more) = Entries.within (Entries.within f more) path := by
  induction path with
  | nil => rfl
  | cons k path ih =>
    funext es
    rw [List.cons_append, Entries.within, Entries.within, ih]

/-- Some entries that a path leads into, seen from outside: `fill` puts new entries in their
place. -/
structure Leads (path : List String) (es inside : Entries) (fill : Entries → Entries) : Prop where
  within : ∀ f, es.within f path = (f inside).map fill
  again : ∀ new f, (fill new).within f path = (f new).map fill

namespace Leads

variable {path : List String} {es inside : Entries} {fill : Entries → Entries}

theorem root (es : Entries) : Leads [] es es id :=
  ⟨fun f => by rw [Entries.within, Option.map_id]; rfl, fun new f => by
    rw [Entries.within, Option.map_id]; rfl⟩

theorem next (h : Leads path es inside fill) (new : Entries) : Leads path (fill new) new fill :=
  ⟨h.again new, h.again⟩

/-- The way into the last entry, if that is a table. -/
theorem table (h : Leads path es inside fill) {before : Entries} {k : String}
    (new : k ∉ before.map (·.1)) (origin : Origin) (sub : Entries) :
    Leads (path ++ [k]) (fill (before ++ [(k, .table origin sub)])) sub
      fun sub => fill (before ++ [(k, .table origin sub)]) := by
  have enter (sub : Entries) (f : Entries → Option Entries) :
      (fill (before ++ [(k, .table origin sub)])).within f (path ++ [k]) =
        (f sub).map fun sub => fill (before ++ [(k, .table origin sub)]) := by
    rw [within_append, h.again, Entries.within, update_last new]
    simp only [Entries.within, Option.map_map]
    rfl
  exact ⟨enter sub, enter⟩

/-- The way into the last table of the last entry, if that is a list of tables. -/
theorem lastTable (h : Leads path es inside fill) {before : Entries} {k : String}
    (new : k ∉ before.map (·.1)) (tables : List Entries) (sub : Entries) :
    Leads (path ++ [k]) (fill (before ++ [(k, .tables (tables ++ [sub]))])) sub
      fun sub => fill (before ++ [(k, .tables (tables ++ [sub]))]) := by
  have enter (sub : Entries) (f : Entries → Option Entries) :
      (fill (before ++ [(k, .tables (tables ++ [sub]))])).within f (path ++ [k]) =
        (f sub).map fun sub => fill (before ++ [(k, .tables (tables ++ [sub]))]) := by
    rw [within_append, h.again, Entries.within, update_last new]
    simp only [Entries.within, onLast_append, Option.map_map]
    rfl
  exact ⟨enter sub, enter⟩

/-- The way into a table that is not there yet: it is implied by what is put into it. -/
theorem implied (h : Leads path es inside fill) {k : String} (new : k ∉ inside.map (·.1)) :
    Leads (path ++ [k]) es [] fun sub => fill (inside ++ [(k, .table .implied sub)]) := by
  refine ⟨fun f => ?_, (h.table new .implied []).again⟩
  rw [within_append, h.within, Entries.within, update_of_not_mem new]
  simp only [Entries.within, Option.map_map]
  rfl

end Leads

/-! ## What a laid out table becomes -/

def placedPlain : List (String × Data) → Entries
  | [] => []
  | (k, d) :: rest => if isSection d then placedPlain rest else (k, .value d) :: placedPlain rest

mutual
def placed : Data → Item
  | .table entries =>
    .table (if showsHeader entries then .header else .implied)
      (placedPlain entries ++ placedSections entries)
  | .list items => .tables (placedTables items)
  | d => .value d

def placedTables : List Data → List Entries
  | [] => []
  | .table entries :: rest => (placedPlain entries ++ placedSections entries) :: placedTables rest
  | _ :: rest => placedTables rest

def placedSections : List (String × Data) → Entries
  | [] => []
  | (k, d) :: rest =>
    if isSection d then (k, placed d) :: placedSections rest else placedSections rest
end

theorem mem_placedPlain {entries : List (String × Data)} {k : String}
    (h : k ∈ (placedPlain entries).map (·.1)) : ∃ d, (k, d) ∈ entries ∧ isSection d = false := by
  induction entries with
  | nil => cases h
  | cons e entries ih =>
    obtain ⟨k', d⟩ := e
    rw [placedPlain] at h
    split at h
    · obtain ⟨d, mem, plain⟩ := ih h
      exact ⟨d, List.mem_cons_of_mem _ mem, plain⟩
    · next plain =>
      rcases List.mem_cons.1 h with rfl | later
      · exact ⟨d, List.mem_cons_self, by simpa using plain⟩
      · obtain ⟨d, mem, plain⟩ := ih later
        exact ⟨d, List.mem_cons_of_mem _ mem, plain⟩

/-- A table of nothing but sections has no plain entries. -/
theorem plain_of_sections {entries : List (String × Data)}
    (only : ∀ e ∈ entries, isSection e.2 = true) :
    plainLines entries = [] ∧ placedPlain entries = [] := by
  induction entries with
  | nil => exact ⟨rfl, rfl⟩
  | cons e entries ih =>
    obtain ⟨k, d⟩ := e
    have headed : isSection d = true := only (k, d) List.mem_cons_self
    rw [plainLines, placedPlain, if_pos headed, if_pos headed]
    exact ih fun e mem => only e (List.mem_cons_of_mem _ mem)

theorem sectionLines_plain {d : Data} (plain : ¬isSection d = true) (path : List String) :
    sectionLines path d = [] := by
  cases d with
  | table t => exact absurd rfl plain
  | list items => rw [sectionLines, if_neg plain]
  | _ => rw [sectionLines] <;> simp

/-- A key is that of a section or of a plain entry, not of both. -/
theorem not_mem_placedPlain {entries : List (String × Data)} (keys : (entries.map (·.1)).Nodup)
    {e : String × Data} (mem : e ∈ entries) (headed : isSection e.2 = true) :
    e.1 ∉ (placedPlain entries).map (·.1) := by
  intro placed
  obtain ⟨d, also, plain⟩ := mem_placedPlain placed
  have same : e = (e.1, d) := List.inj_on_of_nodup_map keys mem also rfl
  rw [same, plain] at headed
  cases headed

/-! ## Reading lines into a draft -/

/-- The entries that a draft has when some lines have been read; which table is open is left out. -/
def Reaches (lines : List Line) (draft : Draft) (entries : Entries) : Prop :=
  ∃ current, lines.foldlM Draft.add draft = some ⟨entries, current⟩

theorem Reaches.append {as bs : List Line} {draft : Draft} {middle last : Entries}
    (first : Reaches as draft middle) (second : ∀ current, Reaches bs ⟨middle, current⟩ last) :
    Reaches (as ++ bs) draft last := by
  obtain ⟨current, read⟩ := first
  obtain ⟨end_, more⟩ := second current
  exact ⟨end_, by rw [List.foldlM_append, read]; exact more⟩

theorem Reaches.after {as bs : List Line} {draft next : Draft} {last : Entries}
    (first : as.foldlM Draft.add draft = some next) (second : Reaches bs next last) :
    Reaches (as ++ bs) draft last := by
  obtain ⟨current, read⟩ := second
  exact ⟨current, by rw [List.foldlM_append, first]; exact read⟩

section
variable {path : List String} {es inside : Entries} {fill : Entries → Entries}

/-- Keys of later entries are still new when an entry has been added. -/
theorem keys_new_snoc {k : String} {d : Data} {entries : List (String × Data)}
    (keys : (((k, d) :: entries).map (·.1)).Nodup) {e : String × Data} (mem : e ∈ entries)
    (new : e.1 ∉ inside.map (·.1)) (i : Item) : e.1 ∉ (inside ++ [(k, i)]).map (·.1) := by
  intro known
  rw [List.map_append, List.mem_append] at known
  refine known.elim new fun same => (List.nodup_cons.1 keys).1 ?_
  rw [← List.mem_singleton.1 same]
  exact List.mem_map_of_mem mem

theorem foldlM_plainLines (h : Leads path es inside fill) {entries : List (String × Data)}
    (keys : (entries.map (·.1)).Nodup) (new : ∀ e ∈ entries, e.1 ∉ inside.map (·.1)) :
    (plainLines entries).foldlM Draft.add ⟨fill inside, path⟩ =
      some ⟨fill (inside ++ placedPlain entries), path⟩ := by
  induction entries generalizing es inside with
  | nil => simp [plainLines, placedPlain]
  | cons e entries ih =>
    obtain ⟨k, d⟩ := e
    have apart := (List.nodup_cons.1 keys).2
    have later : ∀ e ∈ entries, e.1 ∉ inside.map (·.1) :=
      fun e mem => new e (List.mem_cons_of_mem _ mem)
    rw [plainLines, placedPlain]
    split
    · exact ih h apart later
    · have put : Draft.add ⟨fill inside, path⟩ (.entry [k] d) =
          some ⟨fill (inside ++ [(k, .value d)]), path⟩ := by
        rw [Draft.add, h.again, Entries.putValue, update_of_not_mem (new (k, d) List.mem_cons_self)]
        rfl
      have rest := ih (h.next (inside ++ [(k, .value d)])) apart
        fun e mem => keys_new_snoc keys mem (later e mem) _
      rw [List.foldlM_cons, put]
      simpa using rest

end

/-- The sections of a table reach their place, also where the table is only implied by them. -/
def SectionsSettle (t : List (String × Data)) : Prop :=
  ∀ {path : List String} {es inside : Entries} {fill : Entries → Entries},
    Leads path es inside fill →
    (∀ e ∈ t, isSection e.2 = true → e.1 ∉ inside.map (·.1)) →
    (es = fill inside ∨ ∃ e ∈ t, isSection e.2 = true) → ∀ current,
    Reaches (sectionsLines path t) ⟨es, current⟩ (fill (inside ++ placedSections t))

section
variable {path : List String} {es inside : Entries} {fill : Entries → Entries}

theorem reaches_table {t : List (String × Data)} (keys : (t.map (·.1)).Nodup)
    (settles : SectionsSettle t) (h : Leads path es [] fill) :
    Reaches (plainLines t ++ sectionsLines path t) ⟨fill [], path⟩
      (fill (placedPlain t ++ placedSections t)) := by
  refine .after (foldlM_plainLines h keys fun _ _ => List.not_mem_nil) ?_
  rw [List.nil_append]
  exact settles (h.next (placedPlain t)) (fun e mem => not_mem_placedPlain keys mem) (.inl rfl) path

theorem add_listTable (h : Leads path es inside fill) (k : String) (current : List String) :
    Draft.add ⟨es, current⟩ (.listTable (path ++ [k])) =
      (inside.openListTable k).map fun inside => ⟨fill inside, path ++ [k]⟩ := by
  simp only [Draft.add, List.getLastD_concat, List.dropLast_concat, h.within, Option.map_map]
  rfl

theorem add_table (h : Leads path es inside fill) (k : String) (current : List String) :
    Draft.add ⟨es, current⟩ (.table (path ++ [k])) =
      (inside.openTable k).map fun inside => ⟨fill inside, path ++ [k]⟩ := by
  simp only [Draft.add, List.getLastD_concat, List.dropLast_concat, h.within, Option.map_map]
  rfl

theorem openTable_of_not_mem {k : String} {es : Entries} (new : k ∉ es.map (·.1)) :
    es.openTable k = some (es ++ [(k, .table .header [])]) := by
  have absent : es.lookup k = none := by
    rw [List.lookup_eq_none_iff]
    intro e mem
    exact bne_iff_ne.2 fun same => new (same ▸ List.mem_map_of_mem mem)
  rw [Entries.openTable, absent]

theorem openListTable_of_not_mem {k : String} {es : Entries} (new : k ∉ es.map (·.1)) :
    es.openListTable k = some (es ++ [(k, .tables [[]])]) := by
  rw [Entries.openListTable, update_of_not_mem new]
  rfl

theorem openListTable_last {k : String} {es : Entries} (new : k ∉ es.map (·.1))
    (tables : List Entries) :
    Entries.openListTable k (es ++ [(k, .tables tables)]) =
      some (es ++ [(k, .tables (tables ++ [[]]))]) := by
  rw [Entries.openListTable, update_last new]
  rfl

/-- The tables of a list, behind those that are there already. The first of all opens the list. -/
theorem reaches_tables (h : Leads path es inside fill) {k : String} (new : k ∉ inside.map (·.1))
    {items : List Data} (all : ∀ d ∈ items, isTable d = true)
    (each : ∀ t, .table t ∈ items → (t.map (·.1)).Nodup ∧ SectionsSettle t)
    (tables : List Entries) (before : Draft)
    (opens : before.add (.listTable (path ++ [k])) =
      some ⟨fill (inside ++ [(k, .tables (tables ++ [[]]))]), path ++ [k]⟩)
    (there : before.entries = fill (inside ++ [(k, .tables tables)]) ∨ items ≠ []) :
    Reaches (tablesLines (path ++ [k]) items) before
      (fill (inside ++ [(k, .tables (tables ++ placedTables items))])) := by
  induction items generalizing tables before with
  | nil =>
    refine ⟨before.current, ?_⟩
    rw [placedTables, List.append_nil, ← there.resolve_right fun filled => filled rfl]
    rfl
  | cons d items ih =>
    cases d with
    | table t =>
      obtain ⟨keys, settles⟩ := each t List.mem_cons_self
      have inner := h.lastTable new tables []
      have header : [Line.blank, .listTable (path ++ [k])].foldlM Draft.add before =
          some ⟨fill (inside ++ [(k, .tables (tables ++ [[]]))]), path ++ [k]⟩ := by
        simp only [List.foldlM_cons, List.foldlM_nil]
        exact (congrArg (Option.bind · _) opens)
      have first := Reaches.after header (reaches_table keys settles inner)
      rw [tablesLines, placedTables]
      rw [← List.append_assoc] at first
      refine first.append fun current => ?_
      have rest := ih (fun d mem => all d (List.mem_cons_of_mem _ mem))
        (fun t mem => each t (List.mem_cons_of_mem _ mem))
        (tables ++ [placedPlain t ++ placedSections t])
        ⟨fill (inside ++ [(k, .tables (tables ++ [placedPlain t ++ placedSections t]))]), current⟩
        (by rw [add_listTable (h.next _), openListTable_last new]; rfl) (.inl rfl)
      simpa using rest
    | _ => exact absurd (all _ List.mem_cons_self) (by simp [isTable])

theorem reaches_section (h : Leads path es inside fill) {k : String} (new : k ∉ inside.map (·.1))
    {d : Data} (headed : isSection d = true)
    (each : ∀ t, StandsIn t d → (t.map (·.1)).Nodup ∧ SectionsSettle t) (current : List String) :
    Reaches (sectionLines (path ++ [k]) d) ⟨es, current⟩
      (fill (inside ++ [(k, placed d)])) := by
  cases d with
  | table t =>
    obtain ⟨keys, settles⟩ := each t .table
    rw [sectionLines, placed]
    split
    · next shown =>
      have header : [Line.blank, .table (path ++ [k])].foldlM Draft.add ⟨es, current⟩ =
          some ⟨fill (inside ++ [(k, .table .header [])]), path ++ [k]⟩ := by
        have opens := add_table h k current
        rw [openTable_of_not_mem new] at opens
        simp only [List.foldlM_cons, List.foldlM_nil]
        exact (congrArg (Option.bind · _) opens)
      rw [List.append_assoc]
      exact .after header (reaches_table keys settles (h.table new .header []))
    · next hidden =>
      rw [showsHeader, Bool.not_eq_true, Bool.or_eq_false_iff, Bool.not_eq_false'] at hidden
      obtain ⟨filled, sections⟩ := hidden
      obtain ⟨e, rest, rfl⟩ := List.exists_cons_of_ne_nil (List.isEmpty_eq_false_iff.1 filled)
      have only := List.all_eq_true.1 sections
      rw [(plain_of_sections only).1, (plain_of_sections only).2]
      exact settles (h.implied new) (fun _ _ _ => List.not_mem_nil)
        (.inr ⟨e, List.mem_cons_self, only e List.mem_cons_self⟩) current
  | list items =>
    rw [sectionLines, if_pos headed, placed]
    simp only [isSection, Bool.and_eq_true, Bool.not_eq_true', List.isEmpty_eq_false_iff,
      List.all_eq_true] at headed
    have opens := add_listTable h k current
    rw [openListTable_of_not_mem new] at opens
    exact reaches_tables h new headed.2
      (fun t mem => each t (.item (by simpa [isSection] using headed) mem))
      [] ⟨es, current⟩ opens (.inr headed.1)
  | _ => cases headed

end

theorem sectionsSettle {t : List (String × Data)} (keys : (t.map (·.1)).Nodup)
    (each : ∀ e ∈ t, ∀ u, StandsIn u e.2 → (u.map (·.1)).Nodup ∧ SectionsSettle u) :
    SectionsSettle t := by
  intro path es inside fill h new there current
  -- each section adds to `inside`, and the first one may also make the table that it stands in
  induction t generalizing es inside current with
  | nil =>
    refine ⟨current, ?_⟩
    rw [placedSections, List.append_nil,
      ← there.resolve_right fun ⟨e, mem, _⟩ => List.not_mem_nil mem]
    rfl
  | cons e t ih =>
    obtain ⟨k, d⟩ := e
    replace ih := @ih (List.nodup_cons.1 keys).2 fun e mem => each e (List.mem_cons_of_mem _ mem)
    have later : ∀ e ∈ t, isSection e.2 = true → e.1 ∉ inside.map (·.1) :=
      fun e mem => new e (List.mem_cons_of_mem _ mem)
    rw [sectionsLines, placedSections]
    split
    · next headed =>
      refine (reaches_section h (new (k, d) List.mem_cons_self headed) headed
        (each (k, d) List.mem_cons_self) current).append fun current => ?_
      have rest := ih (h.next (inside ++ [(k, placed d)]))
        (fun e mem headed => keys_new_snoc keys mem (later e mem headed) _) (.inl rfl) current
      simpa using rest
    · next plain =>
      rw [sectionLines_plain plain, List.nil_append]
      refine ih h later (there.imp_right fun ⟨e, mem, headed⟩ => ?_) current
      rcases List.mem_cons.1 mem with rfl | mem
      · exact absurd headed plain
      · exact ⟨e, mem, headed⟩

theorem Orderly.sectionsSettle {levels : Nat} {t : List (String × Data)} (h : Orderly levels t) :
    (t.map (·.1)).Nodup ∧ SectionsSettle t := by
  induction h with
  | table keys _ _ ih => exact ⟨keys, Toml.sectionsSettle keys ih⟩

end CoverageMatrix.Toml
