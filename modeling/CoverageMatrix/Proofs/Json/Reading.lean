import CoverageMatrix.Proofs.Data.Decode
import CoverageMatrix.Proofs.Json.Layout
import CoverageMatrix.Proofs.Json.Numbers
import CoverageMatrix.Proofs.Json.Strings

/-!
# What is written is read

A document that carries its data without loss is read back from its text, in either layout. The
reader is given fuel for two steps for each character: one for a value and one for its place in the
list or table around it.
-/
namespace CoverageMatrix.Json

open Decode (ofItems_eq_map ofEntries_eq_map)
open Fragment (ofData ofItems ofEntries)

variable {sp : Spacing} {depth fuel level : Nat} {cs rest blank : List Char}

/-! ## Blanks -/

theorem skipSpace_append (h : blank.all isSpace = true) (cs : List Char) :
    skipSpace (blank ++ cs) = skipSpace cs := by
  rw [List.all_eq_true] at h
  exact List.dropWhile_append_of_pos h

theorem skipSpace_of_solid {c : Char} (solid : isSpace c = false) (cs : List Char) :
    skipSpace (c :: cs) = c :: cs := by
  simp [skipSpace, solid]

/-- Marks that end a value inside a list or a table. -/
def IsMark (c : Char) : Prop :=
  c = ',' ∨ c = ']' ∨ c = '}'

theorem endsNumber_mark {c : Char} (mark : IsMark c) (cs : List Char) : EndsNumber (c :: cs) := by
  intro d first
  cases first
  rcases mark with rfl | rfl | rfl <;> decide

theorem endsNumber_blank {c : Char} (h : blank.all isSpace = true) (mark : IsMark c)
    (cs : List Char) : EndsNumber (blank ++ c :: cs) := by
  cases blank with
  | nil => exact endsNumber_mark mark cs
  | cons b blank =>
    intro d first
    cases first
    have space : Json.isSpace b = true := by
      rw [List.all_cons, Bool.and_eq_true] at h
      exact h.1
    simp only [Json.isSpace, Bool.or_eq_true, decide_eq_true_eq] at space
    rcases space with ((rfl | rfl) | rfl) | rfl <;> decide

/-! ## Scalars -/

/-- Characters with which a value can begin that is neither a list nor a table. -/
structure BeginsScalar (c : Char) : Prop where
  solid : isSpace c = false
  ends : ¬IsMark c
  list : c ≠ '['
  table : c ≠ '{'

theorem BeginsScalar.of_number {c : Char} (h : c = '-' ∨ c.isDigit = true) : BeginsScalar c := by
  have apart (d : Char) (minus : d ≠ '-') (other : d.isDigit = false) : c ≠ d := by
    rintro rfl
    rcases h with h | h
    · exact minus h
    · simp [h] at other
  refine ⟨?_, ?_, apart _ (by decide) rfl, apart _ (by decide) rfl⟩
  · simp [isSpace, apart ' ', apart '\n', apart '\t', apart '\r']
  · simp [IsMark, apart ',', apart ']', apart '}']

theorem word_append (beginning : Beginning) (x : Fragment) (es rest : List Char) :
    word beginning x es (es ++ rest) = (x, some rest) := by
  induction es with
  | nil => rfl
  | cons e es ih => simp [word, ih]

theorem text_writeString (s : String) (enough : (writeString s).length ≤ fuel + 1)
    (rest : List Char) : scalar fuel (writeString s ++ rest) = (.text s, some rest) := by
  obtain ⟨body, eq, read⟩ := string_writeString fuel s enough rest
  rw [eq, List.cons_append]
  simp [scalar, text, read]

/-- Where no nesting is allowed data is a scalar. -/
theorem scalar_writeLeaf (fuel : Nat) {d : Data} (exact : d.IsExact 0)
    (enough : (writeLeaf d).length ≤ fuel + 1) (ends : EndsNumber rest) :
    scalar fuel (writeLeaf d ++ rest) = (ofData d, some rest) := by
  cases exact with
  | null => exact word_append _ _ _ rest
  | bool b =>
    cases b with
    | true => exact word_append _ _ _ rest
    | false => exact word_append _ _ _ rest
  | int low high => exact scalar_int low high ends fuel
  | text s => exact text_writeString s enough rest

theorem exists_writeLeaf_eq_cons {d : Data} (exact : d.IsExact 0) :
    ∃ c body, writeLeaf d = c :: body ∧ BeginsScalar c := by
  have letter {c : Char} (h : c ∈ ['n', 't', 'f', '"']) : BeginsScalar c := by
    simp only [List.mem_cons, List.not_mem_nil, or_false] at h
    rcases h with rfl | rfl | rfl | rfl <;>
      exact ⟨rfl, by simp [IsMark], by decide, by decide⟩
  cases exact with
  | null => exact ⟨'n', _, rfl, letter (by simp)⟩
  | bool b =>
    cases b with
    | true => exact ⟨'t', _, rfl, letter (by simp)⟩
    | false => exact ⟨'f', _, rfl, letter (by simp)⟩
  | @int _ n low high =>
    obtain ⟨c, body, eq, first⟩ := exists_toString_eq_cons n
    exact ⟨c, body, eq, .of_number first⟩
  | text s => exact ⟨'"', _, rfl, letter (by simp)⟩

/-! ## Values -/

/-- From its text in a document, wherever that stands, data is read as what it is. -/
def Spacing.ReadsBack (sp : Spacing) (depth : Nat) (d : Data) : Prop :=
  ∀ (fuel level : Nat) {cs rest : List Char}, 2 * (sp.write level d).length ≤ fuel →
    EndsNumber rest → skipSpace cs = sp.write level d ++ rest →
      value fuel depth cs = (ofData d, some rest)

theorem readsBack_scalar (sp : Spacing) (depth : Nat) {d : Data} (exact : d.IsExact 0) :
    sp.ReadsBack depth d := by
  intro fuel level cs rest enough ends here
  have eq : sp.write level d = writeLeaf d := by
    cases exact <;> rfl
  obtain ⟨c, body, shape, begins⟩ := exists_writeLeaf_eq_cons exact
  rw [eq] at enough here
  obtain ⟨fuel, rfl⟩ : ∃ f, fuel = f + 1 :=
    Nat.exists_eq_succ_of_ne_zero (by rw [shape, List.length_cons] at enough; omega)
  have read := scalar_writeLeaf fuel exact (by omega) ends
  rw [shape, List.cons_append] at here read
  -- neither a list nor a table begins here
  simp [value, here, begins.list, begins.table, read]

/-- A value begins with a character that is no blank and no mark. -/
theorem exists_write_eq_cons (sp : Spacing) (level : Nat) {d : Data} (exact : d.IsExact depth) :
    ∃ c body, sp.write level d = c :: body ∧ isSpace c = false ∧ ¬IsMark c := by
  have leaf {d : Data} (exact : d.IsExact 0) :
      ∃ c body, writeLeaf d = c :: body ∧ isSpace c = false ∧ ¬IsMark c := by
    obtain ⟨c, body, eq, begins⟩ := exists_writeLeaf_eq_cons exact
    exact ⟨c, body, eq, begins.solid, begins.ends⟩
  cases exact with
  | null => exact leaf .null
  | bool b => exact leaf (.bool b)
  | int low high => exact leaf (.int low high)
  | text s => exact leaf (.text s)
  | @list _ items _ =>
    cases items with
    | nil => exact ⟨'[', _, rfl, rfl, by simp [IsMark]⟩
    | cons d rest => exact ⟨'[', _, rfl, rfl, by simp [IsMark]⟩
  | @table _ entries _ =>
    cases entries with
    | nil => exact ⟨'{', _, rfl, rfl, by simp [IsMark]⟩
    | cons e rest => exact ⟨'{', _, rfl, rfl, by simp [IsMark]⟩

theorem skipSpace_write (sp : Spacing) (level : Nat) {d : Data} (exact : d.IsExact depth)
    (rest : List Char) : skipSpace (sp.write level d ++ rest) = sp.write level d ++ rest := by
  obtain ⟨c, body, eq, solid, -⟩ := exists_write_eq_cons sp level exact
  rw [eq, List.cons_append, skipSpace_of_solid solid]

theorem skipSpace_writeString (s : String) (rest : List Char) :
    skipSpace (writeString s ++ rest) = writeString s ++ rest :=
  skipSpace_of_solid rfl _

theorem endsNumber_moreItems (items : List Data) (blanks : blank.all isSpace = true)
    (rest : List Char) : EndsNumber (sp.moreItems level items ++ (blank ++ ']' :: rest)) := by
  cases items with
  | nil => exact endsNumber_blank blanks (.inr (.inl rfl)) rest
  | cons d items => exact endsNumber_mark (.inl rfl) _

theorem endsNumber_moreEntries (entries : List (String × Data))
    (blanks : blank.all isSpace = true) (rest : List Char) :
    EndsNumber (sp.moreEntries level entries ++ (blank ++ '}' :: rest)) := by
  cases entries with
  | nil => exact endsNumber_blank blanks (.inr (.inr rfl)) rest
  | cons e entries => exact endsNumber_mark (.inl rfl) _

/-! ## Lists -/

section
variable {before : List Fragment} {x : Fragment} {after gap body : List Char} {c : Char}

theorem items_last (read : value fuel depth cs = (x, some after))
    (close : skipSpace after = ']' :: rest) :
    items (fuel + 1) depth before cs = (.list (x :: before).reverse .closed, some rest) := by
  simp [items, read, close]

theorem items_next (read : value fuel depth cs = (x, some after))
    (comma : skipSpace after = ',' :: gap) (next : skipSpace gap = c :: body) (more : c ≠ ']') :
    items (fuel + 1) depth before cs = items fuel depth (x :: before) (c :: body) := by
  simp [items, read, comma, next, more]

theorem items_moreItems (before : List Fragment) {more : List Data} (exact : ∀ d ∈ more, d.IsExact depth)
    (each : ∀ d ∈ more, sp.ReadsBack depth d) (blanks : blank.all isSpace = true)
    (enough : 2 * (sp.moreItems level more).length ≤ fuel)
    (read : value fuel depth cs =
      (x, some (sp.moreItems level more ++ (blank ++ ']' :: rest)))) :
    items (fuel + 1) depth before cs =
      (.list (before.reverse ++ x :: ofItems more) .closed, some rest) := by
  induction more generalizing x before fuel cs with
  | nil =>
    have close : skipSpace (blank ++ ']' :: rest) = ']' :: rest :=
      (skipSpace_append blanks _).trans (skipSpace_of_solid rfl rest)
    rw [items_last read close]
    simp [ofItems]
  | cons d more ih =>
    obtain ⟨exact_d, exact⟩ := List.forall_mem_cons.mp exact
    obtain ⟨each_d, each⟩ := List.forall_mem_cons.mp each
    simp only [Spacing.moreItems, List.length_append, List.length_cons] at enough
    obtain ⟨fuel, rfl⟩ : ∃ f, fuel = f + 1 := Nat.exists_eq_succ_of_ne_zero (by omega)
    simp only [Spacing.moreItems, List.append_assoc, List.cons_append] at read
    obtain ⟨c, body, eq, -, unmarked⟩ := exists_write_eq_cons sp level exact_d
    have here := skipSpace_write sp level exact_d
      (sp.moreItems level more ++ (blank ++ ']' :: rest))
    have next := (skipSpace_append (sp.blank_before level) _).trans here
    have read_d := each_d fuel _ (by omega) (endsNumber_moreItems more blanks rest) here
    rw [eq, List.cons_append] at read next read_d
    rw [items_next read (skipSpace_of_solid rfl _) next fun h => unmarked (.inr (.inl h))]
    rw [ih _ exact each (by omega) read_d]
    simp [ofItems]

end

/-! ## Tables -/

/-- An entry is read where it stands. -/
def ReadsEntry (fuel depth : Nat) (cs : List Char) (k : String) (x : Fragment)
    (after : List Char) : Prop :=
  ∃ quoted named colon, skipSpace cs = '"' :: quoted ∧ string fuel quoted = ⟨.ok k, .ok named⟩ ∧
    skipSpace named = ':' :: colon ∧ value fuel depth colon = (x, some after)

section
variable {before : List (Key × Fragment)} {k : String} {x : Fragment}
  {after gap body : List Char} {c : Char}

theorem entries_last (read : ReadsEntry fuel depth cs k x after)
    (close : skipSpace after = '}' :: rest) :
    entries (fuel + 1) depth before cs =
      (.table ((Key.ofText k, x) :: before).reverse .closed, some rest) := by
  obtain ⟨quoted, named, colon, begins, key, mark, read⟩ := read
  simp [entries, begins, key, mark, read, close, Key.ofText]

theorem entries_next (read : ReadsEntry fuel depth cs k x after)
    (comma : skipSpace after = ',' :: gap) (next : skipSpace gap = c :: body) (more : c ≠ '}') :
    entries (fuel + 1) depth before cs =
      entries fuel depth ((Key.ofText k, x) :: before) (c :: body) := by
  obtain ⟨quoted, named, colon, begins, key, mark, read⟩ := read
  simp [entries, begins, key, mark, read, comma, next, more, Key.ofText]

theorem readsEntry_write (fuel : Nat) (k : String) {d : Data} (exact : d.IsExact depth)
    (reads : sp.ReadsBack depth d)
    (enough : 2 * (writeString k ++ sp.write level d).length ≤ fuel) (ends : EndsNumber after)
    (here : skipSpace cs =
      writeString k ++ ':' :: (sp.afterColon ++ (sp.write level d ++ after))) :
    ReadsEntry fuel depth cs k (ofData d) after := by
  rw [List.length_append] at enough
  obtain ⟨body, eq, read⟩ := string_writeString fuel k (by omega)
    (':' :: (sp.afterColon ++ (sp.write level d ++ after)))
  rw [eq, List.cons_append] at here
  refine ⟨_, _, _, here, read, skipSpace_of_solid rfl _, ?_⟩
  refine reads fuel level (by omega) ends ?_
  rw [skipSpace_append sp.blank_afterColon, skipSpace_write _ _ exact]

theorem entries_moreEntries (before : List (Key × Fragment)) {more : List (String × Data)}
    (exact : ∀ e ∈ more, e.2.IsExact depth) (each : ∀ e ∈ more, sp.ReadsBack depth e.2)
    (blanks : blank.all isSpace = true)
    (enough : 2 * (sp.moreEntries level more).length ≤ fuel)
    (read : ReadsEntry fuel depth cs k x (sp.moreEntries level more ++ (blank ++ '}' :: rest))) :
    entries (fuel + 1) depth before cs =
      (.table (before.reverse ++ (Key.ofText k, x) :: ofEntries more) .closed, some rest) := by
  induction more generalizing k x before fuel cs with
  | nil =>
    have close : skipSpace (blank ++ '}' :: rest) = '}' :: rest :=
      (skipSpace_append blanks _).trans (skipSpace_of_solid rfl rest)
    rw [entries_last read close]
    simp [ofEntries]
  | cons e more ih =>
    obtain ⟨l, d⟩ := e
    obtain ⟨exact_d, exact⟩ := List.forall_mem_cons.mp exact
    obtain ⟨each_d, each⟩ := List.forall_mem_cons.mp each
    simp only [Spacing.moreEntries, List.length_append, List.length_cons] at enough
    obtain ⟨fuel, rfl⟩ : ∃ f, fuel = f + 1 := Nat.exists_eq_succ_of_ne_zero (by omega)
    simp only [Spacing.moreEntries, List.append_assoc, List.cons_append] at read
    have here := skipSpace_writeString l (':' :: (sp.afterColon ++ (sp.write level d ++
      (sp.moreEntries level more ++ (blank ++ '}' :: rest)))))
    have next := (skipSpace_append (sp.blank_before level) _).trans here
    have read_e := readsEntry_write fuel l (d := d) exact_d each_d
      (by rw [List.length_append]; omega) (endsNumber_moreEntries more blanks rest) here
    obtain ⟨body, quote⟩ : ∃ body, writeString l = '"' :: body := ⟨_, rfl⟩
    rw [quote, List.cons_append] at read next read_e
    rw [entries_next read (skipSpace_of_solid rfl _) next (by decide)]
    rw [ih _ exact each (by omega) read_e]
    simp [ofEntries]

end

/-! ## All data -/

theorem readsBack_list {items : List Data} (exact : ∀ d ∈ items, d.IsExact depth)
    (each : ∀ d ∈ items, sp.ReadsBack depth d) : sp.ReadsBack (depth + 1) (.list items) := by
  intro fuel level cs rest enough ends here
  cases items with
  | nil =>
    obtain ⟨fuel, rfl⟩ : ∃ f, fuel = f + 1 := Nat.exists_eq_succ_of_ne_zero fun h => by
      simp [Spacing.write, h] at enough
    have close : skipSpace (']' :: rest) = ']' :: rest := skipSpace_of_solid rfl rest
    simp only [Spacing.write, List.cons_append, List.nil_append] at here
    simp [value, here, close, ofData, ofItems]
  | cons d more =>
    obtain ⟨exact_d, exact⟩ := List.forall_mem_cons.mp exact
    obtain ⟨each_d, each⟩ := List.forall_mem_cons.mp each
    simp only [Spacing.write, List.length_append, List.length_cons, List.length_nil] at enough
    obtain ⟨fuel, rfl⟩ : ∃ f, fuel = f + 2 := ⟨fuel - 2, by omega⟩
    simp only [Spacing.write, List.append_assoc, List.cons_append, List.nil_append] at here
    have blanks := sp.blank_before level
    have first := skipSpace_write sp (level + 1) exact_d
      (sp.moreItems (level + 1) more ++ (sp.before level ++ ']' :: rest))
    have next := (skipSpace_append (sp.blank_before (level + 1)) _).trans first
    have read := each_d fuel _ (by omega) (endsNumber_moreItems more blanks rest) first
    have all := items_moreItems [] exact each blanks (by omega) read
    obtain ⟨c, body, eq, -, unmarked⟩ := exists_write_eq_cons sp (level + 1) exact_d
    have more : c ≠ ']' := fun h => unmarked (.inr (.inl h))
    rw [eq, List.cons_append] at here next all
    simp [value, here, next, more, all, ofData, ofItems]

theorem readsBack_table {entries : List (String × Data)} (exact : ∀ e ∈ entries, e.2.IsExact depth)
    (each : ∀ e ∈ entries, sp.ReadsBack depth e.2) :
    sp.ReadsBack (depth + 1) (.table entries) := by
  intro fuel level cs rest enough ends here
  cases entries with
  | nil =>
    obtain ⟨fuel, rfl⟩ : ∃ f, fuel = f + 1 := Nat.exists_eq_succ_of_ne_zero fun h => by
      simp [Spacing.write, h] at enough
    have close : skipSpace ('}' :: rest) = '}' :: rest := skipSpace_of_solid rfl rest
    simp only [Spacing.write, List.cons_append, List.nil_append] at here
    simp [value, here, close, ofData, ofEntries]
  | cons e more =>
    obtain ⟨k, d⟩ := e
    obtain ⟨exact_d, exact⟩ := List.forall_mem_cons.mp exact
    obtain ⟨each_d, each⟩ := List.forall_mem_cons.mp each
    simp only [Spacing.write, List.length_append, List.length_cons, List.length_nil] at enough
    obtain ⟨fuel, rfl⟩ : ∃ f, fuel = f + 2 := ⟨fuel - 2, by omega⟩
    simp only [Spacing.write, List.append_assoc, List.cons_append, List.nil_append] at here
    have blanks := sp.blank_before level
    have first := skipSpace_writeString k (':' :: (sp.afterColon ++ (sp.write (level + 1) d ++
      (sp.moreEntries (level + 1) more ++ (sp.before level ++ '}' :: rest)))))
    have next := (skipSpace_append (sp.blank_before (level + 1)) _).trans first
    have read := readsEntry_write fuel k (d := d) exact_d each_d
      (by rw [List.length_append]; omega) (endsNumber_moreEntries more blanks rest) first
    have all := entries_moreEntries [] exact each blanks (by omega) read
    obtain ⟨body, quote⟩ : ∃ body, writeString k = '"' :: body := ⟨_, rfl⟩
    rw [quote, List.cons_append] at here next all
    simp [value, here, next, all, ofData, ofEntries]

theorem readsBack_of_isExact (sp : Spacing) {d : Data} (exact : d.IsExact depth) :
    sp.ReadsBack depth d := by
  induction exact with
  | null => exact readsBack_scalar sp _ .null
  | bool b => exact readsBack_scalar sp _ (.bool b)
  | int low high => exact readsBack_scalar sp _ (.int low high)
  | text s => exact readsBack_scalar sp _ (.text s)
  | list exact ih => exact readsBack_list exact ih
  | table exact ih => exact readsBack_table exact ih

theorem decode_write {α : Type} (sp : Spacing) (reader : Fragment → Decode.Result α) {d : Data}
    (exact : d.IsExact depthLimit) :
    decode reader (String.ofList (sp.write 0 d)) = reader (ofData d) := by
  have here : skipSpace (sp.write 0 d) = sp.write 0 d ++ [] := by
    simpa using skipSpace_write sp 0 exact []
  have ends : EndsNumber [] := fun c first => by cases first
  have read := readsBack_of_isExact sp exact (2 * (sp.write 0 d).length + 2) 0 (by omega) ends here
  rw [decode, String.toList_ofList, read]
  simp [skipSpace]

/-- Data that its document carries without loss is read back from both of its texts. -/
theorem decode_compact {α : Type} (reader : Fragment → Decode.Result α) {d : Data}
    (exact : d.IsExact depthLimit) : decode reader (compact d) = reader (ofData d) := by
  rw [compact, Spacing.write_compact d 0]
  exact decode_write .compact reader exact

theorem decode_indented {α : Type} (reader : Fragment → Decode.Result α) {d : Data}
    (exact : d.IsExact depthLimit) : decode reader (indented d) = reader (ofData d) := by
  rw [indented, Spacing.write_indented d 0]
  exact decode_write .indented reader exact

end CoverageMatrix.Json
