import CoverageMatrix.Json.Reader
import CoverageMatrix.Json.Writer
import CoverageMatrix.Proofs.Data.Nesting

/-!
# The layouts of JSON

Both ways to write JSON put blanks in the same places: before each item and each end of a list or
table that is not empty, and after each colon.
-/
namespace CoverageMatrix.Json

/-- The blanks of a way to write JSON. -/
structure Spacing where
  /-- What stands before an item or an end at a level of nesting. -/
  before : Nat → List Char
  afterColon : List Char
  blank_before : ∀ level, (before level).all isSpace = true
  blank_afterColon : afterColon.all isSpace = true

namespace Spacing

def compact : Spacing where
  before _ := []
  afterColon := []
  blank_before _ := rfl
  blank_afterColon := rfl

def indented : Spacing where
  before := newLine
  afterColon := [' ']
  blank_before level := by simp [newLine, isSpace]
  blank_afterColon := rfl

variable (sp : Spacing)

mutual
/-- Data as it stands at a level of nesting. -/
def write (level : Nat) : Data → List Char
  | .list [] => ['[', ']']
  | .list (d :: rest) =>
    '[' :: sp.before (level + 1) ++ write (level + 1) d ++ moreItems (level + 1) rest
      ++ sp.before level ++ [']']
  | .table [] => ['{', '}']
  | .table ((k, d) :: rest) =>
    '{' :: sp.before (level + 1) ++ writeString k ++ ':' :: sp.afterColon ++ write (level + 1) d
      ++ moreEntries (level + 1) rest ++ sp.before level ++ ['}']
  | d => writeLeaf d

/-- The items that follow one of a list. -/
def moreItems (level : Nat) : List Data → List Char
  | [] => []
  | d :: rest => ',' :: sp.before level ++ write level d ++ moreItems level rest

def moreEntries (level : Nat) : List (String × Data) → List Char
  | [] => []
  | (k, d) :: rest =>
    ',' :: sp.before level ++ writeString k ++ ':' :: sp.afterColon ++ write level d
      ++ moreEntries level rest
end

/-! ## The two writers -/

theorem writeItems_cons {level : Nat} {d : Data} {rest : List Data}
    (each : ∀ e ∈ d :: rest, Json.write e = compact.write level e) :
    writeItems (d :: rest) = compact.write level d ++ compact.moreItems level rest := by
  induction rest generalizing d with
  | nil => simp [writeItems, moreItems, each]
  | cons e rest ih =>
    rw [List.forall_mem_cons] at each
    simp [writeItems, moreItems, each.1, ih each.2, compact]

theorem writeEntries_cons {level : Nat} {k : String} {d : Data} {rest : List (String × Data)}
    (each : ∀ e ∈ (k, d) :: rest, Json.write e.2 = compact.write level e.2) :
    writeEntries ((k, d) :: rest) =
      writeString k ++ ':' :: compact.write level d ++ compact.moreEntries level rest := by
  induction rest generalizing k d with
  | nil => simp [writeEntries, moreEntries, each (k, d)]
  | cons e rest ih =>
    rw [List.forall_mem_cons] at each
    simp [writeEntries, moreEntries, each.1, ih each.2, compact]

theorem write_compact (d : Data) (level : Nat) : Json.write d = compact.write level d := by
  induction d using Data.inductOn generalizing level with
  | list items ih =>
    cases items with
    | nil => rfl
    | cons d rest =>
      have body := writeItems_cons fun e mem => ih e mem (level + 1)
      simp [Json.write, write, body, compact]
  | table entries ih =>
    cases entries with
    | nil => rfl
    | cons e rest =>
      have body := writeEntries_cons fun e mem => ih e mem (level + 1)
      simp [Json.write, write, body, compact]
  | _ => rfl

theorem indentedItems_cons {level : Nat} {d : Data} {rest : List Data}
    (each : ∀ e ∈ d :: rest, writeIndented level e = indented.write level e) :
    indentedItems level (d :: rest) =
      newLine level ++ indented.write level d ++ indented.moreItems level rest := by
  induction rest generalizing d with
  | nil => simp [indentedItems, moreItems, each]
  | cons e rest ih =>
    rw [List.forall_mem_cons] at each
    simp [indentedItems, moreItems, each.1, ih each.2, indented]

theorem indentedEntries_cons {level : Nat} {k : String} {d : Data} {rest : List (String × Data)}
    (each : ∀ e ∈ (k, d) :: rest, writeIndented level e.2 = indented.write level e.2) :
    indentedEntries level ((k, d) :: rest) =
      newLine level ++ writeString k ++ [':', ' '] ++ indented.write level d
        ++ indented.moreEntries level rest := by
  induction rest generalizing k d with
  | nil => simp [indentedEntries, moreEntries, each (k, d)]
  | cons e rest ih =>
    rw [List.forall_mem_cons] at each
    simp [indentedEntries, moreEntries, each.1, ih each.2, indented]

theorem write_indented (d : Data) (level : Nat) :
    writeIndented level d = indented.write level d := by
  induction d using Data.inductOn generalizing level with
  | list items ih =>
    cases items with
    | nil => rfl
    | cons d rest =>
      have body := indentedItems_cons fun e mem => ih e mem (level + 1)
      simp [writeIndented, write, body, indented]
  | table entries ih =>
    cases entries with
    | nil => rfl
    | cons e rest =>
      have body := indentedEntries_cons fun e mem => ih e mem (level + 1)
      simp [writeIndented, write, body, indented]
  | _ => rfl

end Spacing
end CoverageMatrix.Json
