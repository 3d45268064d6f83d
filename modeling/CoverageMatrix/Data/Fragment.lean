import CoverageMatrix.Data.Basic
import CoverageMatrix.Data.Malformed

/-!
Data as far as a text shows it. A text may break off or break a rule of its format anywhere; what
came before the break is read all the same, so that the first fault of a document is the one that is
found first from its beginning, whether it is a fault of the text or of the data.

A value that a reader is not interested in is passed over with less care than one that is read: its
numbers may have any size, its texts any code units, and it may be nested to any depth. So a broken
value carries two answers, one for each way of meeting it.
-/
namespace CoverageMatrix

/-- What a value that could not be read begins like. -/
inductive Beginning where
  | nothing
  | null
  /-- Like another word, or like a number. -/
  | word
  | text
  | list
  | table
deriving DecidableEq

/-- What follows the last item of a list. -/
inductive ListEnd where
  | closed
  /-- The end of the text. -/
  | cut
  /-- A comma and the closing bracket. -/
  | comma
  /-- A comma and the end of the text. -/
  | cutAfterComma
  /-- Neither a comma nor the closing bracket. -/
  | noSeparator
deriving DecidableEq

/-- What follows the last entry of a table. -/
inductive TableEnd where
  | closed
  /-- The end of the text. -/
  | cut
  /-- A comma and the closing bracket. -/
  | comma
  /-- A comma and the end of the text. -/
  | cutAfterComma
  /-- Neither a comma nor the closing bracket. -/
  | noSeparator
  /-- Something that is no key, where a key should be. -/
  | noKey
deriving DecidableEq

structure Key where
  name : Except Malformed String
  /-- Why it cannot even be passed over. -/
  skip : Option Malformed

/-- A piece of data as far as a text shows it. -/
inductive Fragment where
  | null
  | bool (value : Bool)
  | int (value : Int)
  | float (value : Text.Binary64)
  | text (value : String)
  /-- A date, a time or both, in its normal text. -/
  | moment (value : String)
  | list (items : List Fragment) (ending : ListEnd)
  | table (entries : List (Key × Fragment)) (ending : TableEnd)
  /-- A value that cannot be read; `skip` is why it cannot even be passed over. -/
  | broken (beginning : Beginning) (fault : Malformed) (skip : Option Malformed)

instance : Inhabited Fragment := ⟨.null⟩

/-! ## Endings -/

namespace ListEnd

/-- The fault of an ending for a reader of the list. -/
def fault? : ListEnd → Option Malformed
  | closed => none
  | cut => some .endInList
  | comma => some .trailingComma
  | cutAfterComma => some .endInValue
  | noSeparator => some .expectedListSeparator

/-- The fault of an ending for a reader that passes over the list. -/
def skip? : ListEnd → Option Malformed
  | comma => some .expectedValue
  | ending => ending.fault?

/-- The fault of an ending for a reader that expects no more items than those before it. -/
def surplus? : ListEnd → Option Malformed
  | cutAfterComma | noSeparator => some .trailingCharacters
  | ending => ending.fault?

end ListEnd

namespace TableEnd

/-- The fault of an ending for a reader of the table. -/
def fault? : TableEnd → Option Malformed
  | closed => none
  | cut => some .endInObject
  | comma => some .trailingComma
  | cutAfterComma => some .endInValue
  | noSeparator => some .expectedObjectSeparator
  | noKey => some .keyNotText

/-- The fault of an ending for a reader that passes over the table. -/
def skip? : TableEnd → Option Malformed
  | comma => some .keyNotText
  | cutAfterComma => some .endInObject
  | ending => ending.fault?

end TableEnd

/-! ## Keys -/

namespace Key

def ofText (name : String) : Key := ⟨.ok name, none⟩

end Key

/-! ## Fragments and data -/

namespace Fragment

mutual
def ofData : Data → Fragment
  | .null => .null
  | .bool b => .bool b
  | .int n => .int n
  | .float x => .float x
  | .text s => .text s
  | .moment s => .moment s
  | .list items => .list (ofItems items) .closed
  | .table entries => .table (ofEntries entries) .closed

def ofItems : List Data → List Fragment
  | [] => []
  | d :: rest => ofData d :: ofItems rest

def ofEntries : List (String × Data) → List (Key × Fragment)
  | [] => []
  | (k, d) :: rest => (Key.ofText k, ofData d) :: ofEntries rest
end

/-- A fault, if there is one, as the outcome of a check. -/
def check (fault : Option Malformed) : Except Malformed Unit :=
  match fault with
  | none => .ok ()
  | some fault => .error fault

mutual
/-- The data that a fragment shows, if it shows all of it; else the first fault. -/
def toData : Fragment → Except Malformed Data
  | .null => .ok .null
  | .bool b => .ok (.bool b)
  | .int n => .ok (.int n)
  | .float x => .ok (.float x)
  | .text s => .ok (.text s)
  | .moment s => .ok (.moment s)
  | .list items ending => do
    let ds ← toItems items
    check ending.fault?
    pure (.list ds)
  | .table entries ending => do
    let es ← toEntries entries
    check ending.fault?
    pure (.table es)
  | .broken _ fault _ => .error fault

def toItems : List Fragment → Except Malformed (List Data)
  | [] => .ok []
  | x :: rest => do
    let d ← toData x
    let ds ← toItems rest
    pure (d :: ds)

def toEntries : List (Key × Fragment) → Except Malformed (List (String × Data))
  | [] => .ok []
  | (k, x) :: rest => do
    let name ← k.name
    let d ← toData x
    let es ← toEntries rest
    pure ((name, d) :: es)
end

mutual
/-- Why a fragment cannot be passed over: its first fault that is one even then. -/
def skip? : Fragment → Option Malformed
  | .list items ending => (skipItems? items).or ending.skip?
  | .table entries ending => (skipEntries? entries).or ending.skip?
  | .broken _ _ skip => skip
  | _ => none

/-- The first fault among items that are passed over. -/
def skipItems? : List Fragment → Option Malformed
  | [] => none
  | x :: rest => (skip? x).or (skipItems? rest)

/-- The first fault among entries that are passed over. -/
def skipEntries? : List (Key × Fragment) → Option Malformed
  | [] => none
  | (k, x) :: rest => (k.skip.or (skip? x)).or (skipEntries? rest)
end

/-! ## Laws -/

mutual
theorem toData_ofData (d : Data) : (ofData d).toData = .ok d := by
  cases d with
  | list items =>
    simp [ofData, toData, ListEnd.fault?, check, toItems_ofItems items, bind, Except.bind, pure,
      Except.pure]
  | table entries =>
    simp [ofData, toData, TableEnd.fault?, check, toEntries_ofEntries entries, bind, Except.bind,
      pure, Except.pure]
  | _ => simp [ofData, toData]

theorem toItems_ofItems (items : List Data) : toItems (ofItems items) = .ok items := by
  cases items with
  | nil => rfl
  | cons d rest =>
    simp [ofItems, toItems, toData_ofData d, toItems_ofItems rest, bind, Except.bind, pure,
      Except.pure]

theorem toEntries_ofEntries (entries : List (String × Data)) :
    toEntries (ofEntries entries) = .ok entries := by
  match entries with
  | [] => rfl
  | (k, d) :: rest =>
    simp [ofEntries, toEntries, Key.ofText, toData_ofData d, toEntries_ofEntries rest, bind,
      Except.bind, pure, Except.pure]
end

end Fragment
end CoverageMatrix
