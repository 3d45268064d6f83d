import CoverageMatrix.Data.Decode
import CoverageMatrix.Proofs.Except

/-! Readers find in data no larger numbers than it holds. -/
namespace CoverageMatrix

/-- Data without numbers above the largest of 64 bits with a sign. -/
inductive Data.Bounded : Data → Prop where
  | null : Bounded .null
  | bool (b : Bool) : Bounded (.bool b)
  | int {n : Int} (small : n ≤ Data.maxInt64) : Bounded (.int n)
  | float (x : Text.Binary64) : Bounded (.float x)
  | text (s : String) : Bounded (.text s)
  | moment (s : String) : Bounded (.moment s)
  | list {items : List Data} (each : ∀ d ∈ items, Bounded d) : Bounded (.list items)
  | table {entries : List (String × Data)} (each : ∀ e ∈ entries, Bounded e.2) :
      Bounded (.table entries)

/-- Data as a document of the TOML format gives it: there is no null, numbers have 64 bits with a
sign, and no key stands twice in a table. -/
inductive Data.Regular : Data → Prop where
  | bool (b : Bool) : Regular (.bool b)
  | int {n : Int} (small : n ≤ Data.maxInt64) : Regular (.int n)
  | float (x : Text.Binary64) : Regular (.float x)
  | text (s : String) : Regular (.text s)
  | moment (s : String) : Regular (.moment s)
  | list {items : List Data} (each : ∀ d ∈ items, Regular d) : Regular (.list items)
  | table {entries : List (String × Data)} (keys : (entries.map (·.1)).Nodup)
      (each : ∀ e ∈ entries, Regular e.2) : Regular (.table entries)

theorem Data.Regular.bounded {d : Data} (h : d.Regular) : d.Bounded := by
  induction h with
  | bool b => exact .bool b
  | int small => exact .int small
  | float x => exact .float x
  | text s => exact .text s
  | moment s => exact .moment s
  | list _ ih => exact .list ih
  | table _ _ ih => exact .table ih

namespace Decode

open Fragment (ofData ofItems ofEntries)

/-- A fragment that shows bounded data in full. -/
def Shows (x : Fragment) : Prop :=
  ∃ d : Data, d.Bounded ∧ x = ofData d

theorem mem_ofItems {items : List Data} {x : Fragment} (mem : x ∈ ofItems items) :
    ∃ d ∈ items, x = ofData d := by
  induction items with
  | nil => cases mem
  | cons d items ih =>
    rw [ofItems] at mem
    rcases List.mem_cons.1 mem with rfl | mem
    · exact ⟨d, List.mem_cons_self, rfl⟩
    · obtain ⟨d', among, same⟩ := ih mem
      exact ⟨d', List.mem_cons_of_mem _ among, same⟩

theorem mem_ofEntries {es : List (String × Data)} {x : Key × Fragment} (mem : x ∈ ofEntries es) :
    ∃ e ∈ es, x.2 = ofData e.2 := by
  induction es with
  | nil => cases mem
  | cons e es ih =>
    obtain ⟨k, d⟩ := e
    rw [ofEntries] at mem
    rcases List.mem_cons.1 mem with rfl | mem
    · exact ⟨(k, d), List.mem_cons_self, rfl⟩
    · obtain ⟨e', among, same⟩ := ih mem
      exact ⟨e', List.mem_cons_of_mem _ among, same⟩

/-! ## Records -/

/-- The fields that are found are entries of the table. -/
theorem mem_checkEntries {fields : List Field} {unknown : Unknown} {seen : List String}
    {es : List (Key × Fragment)} {r : RecordEntries}
    (h : checkEntries fields unknown seen es = .ok r) {e : String × Fragment} (mem : e ∈ r) :
    ∃ e' ∈ es, e.2 = e'.2 := by
  induction es generalizing seen r with
  | nil =>
    cases h
    cases mem
  | cons e' es ih =>
    obtain ⟨k, x⟩ := e'
    have later {r : RecordEntries} {seen : List String}
        (h : checkEntries fields unknown seen es = .ok r) (mem : e ∈ r) :
        ∃ e' ∈ (k, x) :: es, e.2 = e'.2 := by
      obtain ⟨e', among, same⟩ := ih h mem
      exact ⟨e', List.mem_cons_of_mem _ among, same⟩
    rw [checkEntries] at h
    obtain ⟨name, -, h⟩ := ok_of_bind h
    split at h
    · split at h
      · cases h
      · obtain ⟨_, -, h⟩ := ok_of_bind h
        exact later h mem
    · dsimp only at h
      split at h
      · cases h
      · obtain ⟨_, -, h⟩ := ok_of_bind h
        obtain ⟨known, checked, h⟩ := ok_of_bind h
        cases h
        rcases List.mem_cons.1 mem with rfl | mem
        · exact ⟨(k, x), List.mem_cons_self, rfl⟩
        · exact later checked mem

theorem mem_checkItems {dialect : Dialect} {name : String} {count place : Nat}
    {fields : List Field} {xs : List Fragment} {ending : ListEnd} {r : RecordEntries}
    (h : checkItems dialect name count place fields xs ending = .ok r) {e : String × Fragment}
    (mem : e ∈ r) : e.2 ∈ xs := by
  induction fields generalizing place xs r with
  | nil =>
    have none : r = [] := by
      rw [checkItems] at h
      split at h
      · dsimp only at h
        split at h
        · cases h
        · obtain ⟨_, -, h⟩ := ok_of_bind h
          exact (Except.ok.inj h).symm
      · exact (Except.ok.inj h).symm
    rw [none] at mem
    cases mem
  | cons f fields ih =>
    cases xs with
    | nil =>
      rw [checkItems] at h
      obtain ⟨_, -, h⟩ := ok_of_bind h
      split at h
      · exact ih h mem
      · cases h
    | cons x xs =>
      rw [checkItems] at h
      obtain ⟨_, -, h⟩ := ok_of_bind h
      obtain ⟨known, checked, h⟩ := ok_of_bind h
      cases h
      rcases List.mem_cons.1 mem with rfl | mem
      · exact List.mem_cons_self
      · exact List.mem_cons_of_mem _ (ih checked mem)

theorem record_shows {dialect : Dialect} {name : String} {unknown : Unknown} {fields : List Field}
    {x : Fragment} (shows : Shows x) {r : RecordEntries}
    (h : record dialect name unknown fields x = .ok r) : ∀ e ∈ r, Shows e.2 := by
  obtain ⟨d, bounded, rfl⟩ := shows
  intro e mem
  cases bounded with
  | list each =>
    obtain ⟨d', among, same⟩ := mem_ofItems (mem_checkItems h mem)
    exact ⟨d', each d' among, same⟩
  | table each =>
    obtain ⟨known, checked, h⟩ := ok_of_bind h
    obtain ⟨_, -, h⟩ := ok_of_bind h
    cases h
    obtain ⟨e', among, same⟩ := mem_checkEntries checked mem
    obtain ⟨e'', among', same'⟩ := mem_ofEntries among
    exact ⟨e''.2, each e'' among', same.trans same'⟩
  | moment s =>
    obtain ⟨e', among, same⟩ := mem_checkEntries h mem
    rw [List.mem_singleton.1 among] at same
    exact ⟨.text s, .text s, same⟩
  | _ => cases h

section
variable {α : Type} {reader : Fragment → Result α} {field : String} {r : RecordEntries} {a : α}

theorem getD_all {P : α → Prop} {default : α} (h : r.getD field reader default = .ok a)
    (shows : ∀ e ∈ r, Shows e.2) (absent : P default)
    (read : ∀ x, Shows x → reader x = .ok a → P a) : P a := by
  rw [RecordEntries.getD] at h
  split at h
  · cases h
    exact absent
  · next x found =>
    obtain ⟨before, after, rfl, -⟩ := List.lookup_eq_some_iff.1 found
    exact read x (shows (field, x) (List.mem_append_right _ List.mem_cons_self)) h

end

theorem natural_le {x : Fragment} (shows : Shows x) {expected : String} {n : Nat}
    (h : natural expected x = .ok n) : (n : Int) ≤ Data.maxInt64 := by
  obtain ⟨d, bounded, rfl⟩ := shows
  cases bounded with
  | @int m small =>
    rw [natural, ofData, integer] at h
    split at h
    · next bounds =>
      cases h
      exact Int.le_trans (Int.le_of_eq (Int.toNat_of_nonneg bounds.1)) small
    · cases h
  | _ => cases h

end Decode
end CoverageMatrix
