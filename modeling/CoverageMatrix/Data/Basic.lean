import CoverageMatrix.Text.Binary64

/-!
Data as documents carry it: numbers, texts, lists and tables. Both document formats of this library
are read into `Data` and written from it. A table keeps its entries in document order.
-/
namespace CoverageMatrix

inductive Data where
  | null
  | bool (value : Bool)
  | int (value : Int)
  | float (value : Text.Binary64)
  | text (value : String)
  /-- A date, a time or both, in its normal text. -/
  | moment (value : String)
  | list (items : List Data)
  | table (entries : List (String × Data))

namespace Data

instance : Inhabited Data := ⟨.null⟩

/-- The entry of a table under a key; `null` when there is none or the data is no table. -/
def entry (d : Data) (key : String) : Data :=
  match d with
  | .table entries => (entries.lookup key).getD .null
  | _ => .null

/-- The key under which a date or time shows its text to readers that expect a table. -/
def momentKey : String := "$__toml_private_datetime"

def text? : Data → Option String
  | .text s => some s
  | _ => none

/-- The smallest and the largest whole number that 64 bits hold with a sign, and without. -/
def minInt64 : Int := -9223372036854775808

@[inherit_doc minInt64]
def maxInt64 : Int := 9223372036854775807

@[inherit_doc minInt64]
def maxUInt64 : Int := 18446744073709551615

/-- The data as a whole number of 64 bits with a sign, if it is one. -/
def int64? : Data → Option Int
  | .int n => if minInt64 ≤ n ∧ n ≤ maxInt64 then some n else none
  | _ => none

/-! ## Tables by key -/

/-- Puts an entry into a table sorted by key, in place of one with the same key. -/
def putSorted {α : Type} (key : String) (value : α) : List (String × α) → List (String × α)
  | [] => [(key, value)]
  | (k, v) :: rest =>
    if key < k then (key, value) :: (k, v) :: rest
    else if key = k then (key, value) :: rest
    else (k, v) :: putSorted key value rest

theorem lookup_putSorted {α : Type} (key other : String) (value : α) (l : List (String × α)) :
    (putSorted key value l).lookup other = if other = key then some value else l.lookup other := by
  have apart {x y : String} (h : ¬x = y) : (x == y) = false := beq_false_of_ne h
  induction l with
  | nil => by_cases h : other = key <;> simp [putSorted, List.lookup_cons, h, apart]
  | cons e rest ih =>
    obtain ⟨k, v⟩ := e
    rw [putSorted]
    split
    · by_cases h : other = key <;> simp [List.lookup_cons, h, apart]
    · split
      · next same =>
        subst same
        by_cases h : other = key <;> simp [List.lookup_cons, h, apart]
      · next differs =>
        rw [List.lookup_cons, ih, List.lookup_cons]
        by_cases h : other = key <;> simp [h, apart differs]

/-- The entries sorted by key, the last of each key. -/
def sortEntries {α : Type} (entries : List (String × α)) : List (String × α) :=
  entries.foldl (fun sorted e => putSorted e.1 e.2 sorted) []

/-- A table with its entries sorted by key. -/
def record (entries : List (String × Data)) : Data :=
  .table (sortEntries entries)

theorem lookup_sortEntries {α : Type} (key : String) (entries : List (String × α)) :
    (sortEntries entries).lookup key = entries.reverse.lookup key := by
  have all (l : List (String × α)) :
      (entries.foldl (fun sorted e => putSorted e.1 e.2 sorted) l).lookup key =
        (entries.reverse.lookup key).or (l.lookup key) := by
    induction entries generalizing l with
    | nil => rfl
    | cons e rest ih =>
      obtain ⟨k, v⟩ := e
      rw [List.foldl_cons, ih, lookup_putSorted, List.reverse_cons, List.lookup_append,
        Option.or_assoc]
      congr 1
      by_cases h : key = k
      · simp [h]
      · simp [List.lookup_cons, h, beq_false_of_ne h]
  rw [sortEntries, all]
  exact Option.or_none

theorem entry_record (entries : List (String × Data)) (key : String) :
    (record entries).entry key = (entries.reverse.lookup key).getD .null := by
  rw [record, entry, lookup_sortEntries]

mutual
/-- The data with every table inside it sorted by key. -/
def sorted : Data → Data
  | .list items => .list (sortedItems items)
  | .table entries => .table (sortEntries (sortedTable entries))
  | d => d

def sortedItems : List Data → List Data
  | [] => []
  | d :: rest => sorted d :: sortedItems rest

/-- Each entry with the tables of its value sorted. -/
def sortedTable : List (String × Data) → List (String × Data)
  | [] => []
  | (k, d) :: rest => (k, sorted d) :: sortedTable rest
end

end Data
end CoverageMatrix
