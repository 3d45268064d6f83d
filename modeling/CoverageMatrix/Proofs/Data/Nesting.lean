import CoverageMatrix.Data.Basic

/-!
# Nested data

Induction over data, and the data that a document of limited nesting carries without loss.
-/
namespace CoverageMatrix.Data

/-- What holds of a list or a table if it holds of all inside holds of all data. -/
@[elab_as_elim]
theorem inductOn {motive : Data → Prop} (null : motive .null) (bool : ∀ b, motive (.bool b))
    (int : ∀ n, motive (.int n)) (float : ∀ x, motive (.float x)) (text : ∀ s, motive (.text s))
    (moment : ∀ s, motive (.moment s))
    (list : ∀ items, (∀ d ∈ items, motive d) → motive (.list items))
    (table : ∀ entries, (∀ e ∈ entries, motive e.2) → motive (.table entries)) (d : Data) :
    motive d :=
  @Data.rec motive (fun items => ∀ d ∈ items, motive d) (fun es => ∀ e ∈ es, motive e.2)
    (fun e => motive e.2) null bool int float text moment list table
    (by simp) (fun _ _ first rest => List.forall_mem_cons.mpr ⟨first, rest⟩)
    (by simp) (fun _ _ first rest => List.forall_mem_cons.mpr ⟨first, rest⟩) (fun _ _ h => h) d

/-- Data without fractions, dates and times, whose numbers 64 bits hold and which is nested at most
so deep. -/
inductive IsExact : Nat → Data → Prop where
  | null {depth : Nat} : IsExact depth .null
  | bool {depth : Nat} (b : Bool) : IsExact depth (.bool b)
  | int {depth : Nat} {n : Int} (low : minInt64 ≤ n) (high : n ≤ maxUInt64) : IsExact depth (.int n)
  | text {depth : Nat} (s : String) : IsExact depth (.text s)
  | list {depth : Nat} {items : List Data} (each : ∀ d ∈ items, IsExact depth d) :
      IsExact (depth + 1) (.list items)
  | table {depth : Nat} {entries : List (String × Data)} (each : ∀ e ∈ entries, IsExact depth e.2) :
      IsExact (depth + 1) (.table entries)

theorem IsExact.mono {m n : Nat} {d : Data} (h : d.IsExact m) (le : m ≤ n) : d.IsExact n := by
  induction h generalizing n with
  | null => exact .null
  | bool b => exact .bool b
  | int low high => exact .int low high
  | text s => exact .text s
  | list _ ih =>
    cases n with
    | zero => cases le
    | succ n => exact .list fun d mem => ih d mem (Nat.le_of_succ_le_succ le)
  | table _ ih =>
    cases n with
    | zero => cases le
    | succ n => exact .table fun e mem => ih e mem (Nat.le_of_succ_le_succ le)

@[simp] theorem isExact_text (depth : Nat) (s : String) : IsExact depth (.text s) := .text s

@[simp] theorem isExact_bool (depth : Nat) (b : Bool) : IsExact depth (.bool b) := .bool b

@[simp] theorem isExact_null (depth : Nat) : IsExact depth .null := .null

@[simp] theorem isExact_int {depth : Nat} {n : Int} :
    IsExact depth (.int n) ↔ minInt64 ≤ n ∧ n ≤ maxUInt64 := by
  constructor
  · intro h
    cases h with
    | int low high => exact ⟨low, high⟩
  · exact fun ⟨low, high⟩ => .int low high

theorem isExact_natural {n : Nat} (small : (n : Int) ≤ maxUInt64) (depth : Nat) :
    IsExact depth (.int n) :=
  .int (Int.le_trans (by decide) (Int.natCast_nonneg n)) small

@[simp] theorem isExact_list {depth : Nat} {items : List Data} :
    IsExact (depth + 1) (.list items) ↔ ∀ d ∈ items, d.IsExact depth := by
  constructor
  · intro h
    cases h with
    | list each => exact each
  · exact .list

@[simp] theorem isExact_table {depth : Nat} {entries : List (String × Data)} :
    IsExact (depth + 1) (.table entries) ↔ ∀ e ∈ entries, e.2.IsExact depth := by
  constructor
  · intro h
    cases h with
    | table each => exact each
  · exact .table

end CoverageMatrix.Data
