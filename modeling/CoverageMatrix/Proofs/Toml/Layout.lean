import CoverageMatrix.Proofs.Toml.Lines
import CoverageMatrix.Toml.Document

/-! The lines that tables are laid out in. What the writer puts down for tables that hold no others
but those under headers reads as these lines. -/
namespace CoverageMatrix.Toml

/-! ## Lines of a table -/

def plainLines : List (String × Data) → List Line
  | [] => []
  | (k, d) :: rest => if isSection d then plainLines rest else .entry [k] d :: plainLines rest

mutual
def sectionLines (path : List String) : Data → List Line
  | .table entries =>
    (if showsHeader entries then [.blank, .table path] else []) ++ plainLines entries
      ++ sectionsLines path entries
  | .list items => if isSection (.list items) then tablesLines path items else []
  | _ => []

def tablesLines (path : List String) : List Data → List Line
  | [] => []
  | .table entries :: rest =>
    [.blank, .listTable path] ++ plainLines entries ++ sectionsLines path entries
      ++ tablesLines path rest
  | _ :: rest => tablesLines path rest

def sectionsLines (path : List String) : List (String × Data) → List Line
  | [] => []
  | (k, d) :: rest => sectionLines (path ++ [k]) d ++ sectionsLines path rest
end

/-! ## Tables that can be laid out -/

/-- A table that stands under a header for some data: the data itself or a table in its list. -/
inductive StandsIn (t : List (String × Data)) : Data → Prop where
  | table : StandsIn t (.table t)
  | item {items : List Data} (headed : isSection (.list items) = true) (mem : .table t ∈ items) :
      StandsIn t (.list items)

/-- Tables with headers up to some levels below them: no key twice, and under the keys nothing but
tables and values without them. -/
inductive Orderly : Nat → List (String × Data) → Prop where
  | table {levels : Nat} {entries : List (String × Data)}
      (keys : (entries.map (·.1)).Nodup)
      (plain : ∀ e ∈ entries, isSection e.2 = false → Storable depthLimit e.2)
      (inner : ∀ e ∈ entries, ∀ t, StandsIn t e.2 → Orderly levels t) :
      Orderly (levels + 1) entries

/-! ## Writing and reading -/

/-- What is written for a table under a path: for its plain entries, and for its sections. -/
structure LaidOut (path : List String) (entries : List (String × Data))
    (plain inner : List Char) : Prop where
  writesPlain : writePlain? entries = some plain
  writesInner : writeSections? path entries = some inner
  readsPlain : ReadsAs plain (plainLines entries)
  readsInner : ReadsAs inner (sectionsLines path entries)

theorem exists_plain {entries : List (String × Data)}
    (storable : ∀ e ∈ entries, isSection e.2 = false → Storable depthLimit e.2) :
    ∃ text, writePlain? entries = some text ∧ ReadsAs text (plainLines entries) := by
  induction entries with
  | nil => exact ⟨[], rfl, .nil⟩
  | cons e entries ih =>
    obtain ⟨k, d⟩ := e
    obtain ⟨rest, written, reads⟩ := ih fun e mem => storable e (List.mem_cons_of_mem _ mem)
    cases headed : isSection d with
    | true =>
      refine ⟨rest, ?_, ?_⟩
      · rw [writePlain?, if_pos headed, written]
      · rw [plainLines, if_pos headed]
        exact reads
    | false =>
      obtain ⟨text, value⟩ := (storable (k, d) List.mem_cons_self headed).renders
      have apart : ¬isSection d = true := by simp [headed]
      refine ⟨writeKey k ++ [' ', '=', ' '] ++ text ++ ['\n'] ++ rest, ?_, ?_⟩
      · rw [writePlain?, if_neg apart, value.written, written]
        simp
      · rw [plainLines, if_neg apart]
        exact (readsAs_entry k value).append reads

section
variable {path : List String} (filled : path ≠ []) (short : path.length ≤ keyLimit)
include filled short

theorem exists_tables {items : List Data}
    (each : ∀ t, .table t ∈ items → ∃ plain inner, LaidOut path t plain inner) :
    ∃ text, writeTables? path items = some text ∧ ReadsAs text (tablesLines path items) := by
  induction items with
  | nil => exact ⟨[], rfl, .nil⟩
  | cons d items ih =>
    obtain ⟨rest, written, reads⟩ := ih fun t mem => each t (List.mem_cons_of_mem _ mem)
    cases d with
    | table t =>
      obtain ⟨plain, inner, laid⟩ := each t List.mem_cons_self
      refine ⟨['\n', '[', '['] ++ writePath path ++ [']', ']', '\n'] ++ plain ++ inner ++ rest,
        ?_, ?_⟩
      · rw [writeTables?, laid.writesPlain, laid.writesInner, written]
        rfl
      · have header := readsAs_blank.append (readsAs_listTable filled short)
        simpa [tablesLines] using
          ((header.append laid.readsPlain).append laid.readsInner).append reads
    | _ => exact ⟨rest, by rw [writeTables?, written]; simp, by rwa [tablesLines]; simp⟩

theorem exists_section {d : Data}
    (each : ∀ t, StandsIn t d → ∃ plain inner, LaidOut path t plain inner) :
    ∃ text, writeSection? path d = some text ∧ ReadsAs text (sectionLines path d) := by
  cases d with
  | table t =>
    obtain ⟨plain, inner, laid⟩ := each t .table
    by_cases shown : showsHeader t = true
    · refine ⟨'\n' :: '[' :: writePath path ++ [']', '\n'] ++ plain ++ inner, ?_, ?_⟩
      · rw [writeSection?, laid.writesPlain, laid.writesInner]
        simp [shown]
      · have header := readsAs_blank.append (readsAs_table filled short)
        simpa [sectionLines, shown] using (header.append laid.readsPlain).append laid.readsInner
    · refine ⟨plain ++ inner, ?_, ?_⟩
      · rw [writeSection?, laid.writesPlain, laid.writesInner]
        simp [shown]
      · simpa [sectionLines, shown] using laid.readsPlain.append laid.readsInner
  | list items =>
    by_cases headed : isSection (.list items) = true
    · rw [writeSection?, if_pos headed, sectionLines, if_pos headed]
      exact exists_tables filled short fun t mem => each t (.item headed mem)
    · rw [writeSection?, if_neg headed, sectionLines, if_neg headed]
      exact ⟨[], rfl, .nil⟩
  | _ => exact ⟨[], by rw [writeSection?] <;> simp, by rw [sectionLines] <;> simp [ReadsAs.nil]⟩

end

theorem exists_sections (path : List String) (short : path.length < keyLimit)
    {entries : List (String × Data)}
    (each : ∀ e ∈ entries, ∀ t, StandsIn t e.2 →
      ∃ plain inner, LaidOut (path ++ [e.1]) t plain inner) :
    ∃ text, writeSections? path entries = some text ∧
      ReadsAs text (sectionsLines path entries) := by
  induction entries with
  | nil => exact ⟨[], rfl, .nil⟩
  | cons e entries ih =>
    obtain ⟨rest, written, reads⟩ := ih fun e mem => each e (List.mem_cons_of_mem _ mem)
    have filled : path ++ [e.1] ≠ [] := by simp
    obtain ⟨text, writtenFirst, readsFirst⟩ :=
      exists_section filled (by rw [List.length_append]; exact short) (each e List.mem_cons_self)
    refine ⟨text ++ rest, ?_, readsFirst.append reads⟩
    rw [writeSections?, writtenFirst, written]
    rfl

/-- Orderly tables can be written, and read line by line. -/
theorem Orderly.laidOut {levels : Nat} {entries : List (String × Data)} (h : Orderly levels entries)
    (path : List String) (short : path.length + levels ≤ keyLimit) :
    ∃ plain inner, LaidOut path entries plain inner := by
  induction h generalizing path with
  | table keys storable inner ih =>
    obtain ⟨plain, writtenPlain, readsPlain⟩ := exists_plain storable
    obtain ⟨inner, writtenInner, readsInner⟩ := exists_sections path (by omega)
      fun e mem t stands => ih e mem t stands _ (by simp; omega)
    exact ⟨plain, inner, writtenPlain, writtenInner, readsPlain, readsInner⟩

end CoverageMatrix.Toml
