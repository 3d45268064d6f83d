import CoverageMatrix.Data.Basic

/-!
Tables under construction. A document defines each table once, by a header or by dotted keys, and
the way in which a table came to be decides what may still be added to it.
-/
namespace CoverageMatrix.Toml

inductive Origin where
  | header
  /-- On the way of a header to a table inside it. -/
  | implied
  /-- On the way of a dotted key. -/
  | dotted
deriving DecidableEq

/-- What stands under a key while a document is read. -/
inductive Item where
  | value (d : Data)
  | table (origin : Origin) (entries : List (String × Item))
  /-- A list of tables, of which the last is open. -/
  | tables (items : List (List (String × Item)))

abbrev Entries := List (String × Item)

/-- Changes the item under a key in its place; a new one goes to the end. -/
def Entries.update (k : String) (f : Option Item → Option Item) : Entries → Option Entries
  | [] => (f none).map fun i => [(k, i)]
  | (k', i) :: rest =>
    if k = k' then (f (some i)).map fun i => (k', i) :: rest
    else (Entries.update k f rest).map ((k', i) :: ·)

def onLast {α : Type} (f : α → Option α) : List α → Option (List α)
  | [] => none
  | [a] => (f a).map fun a => [a]
  | a :: rest => (onLast f rest).map (a :: ·)

/-- Changes the table that a path leads to; tables on the way that are missing are implied. -/
def Entries.within (f : Entries → Option Entries) : List String → Entries → Option Entries
  | [], es => f es
  | k :: ks, es =>
    es.update k fun
      | none => (Entries.within f ks []).map (.table .implied)
      | some (.table origin sub) => (Entries.within f ks sub).map (.table origin)
      | some (.tables ts) => (onLast (Entries.within f ks) ts).map .tables
      | some (.value _) => none

/-- Opens a table by its header. A table that was only implied keeps what it has and moves to the
end; any other has been defined before. -/
def Entries.openTable (k : String) (es : Entries) : Option Entries :=
  match es.lookup k with
  | none => some (es ++ [(k, .table .header [])])
  | some (.table .implied sub) =>
    some (es.filter (fun e => !decide (e.1 = k)) ++ [(k, .table .header sub)])
  | some _ => none

/-- Opens a further table of a list by its header. -/
def Entries.openListTable (k : String) (es : Entries) : Option Entries :=
  es.update k fun
    | none => some (.tables [[]])
    | some (.tables ts) => some (.tables (ts ++ [[]]))
    | some _ => none

/-- Puts a value under a dotted key. The table that gets it has to have come to be by dotted keys,
unless the key is a plain one. -/
def Entries.putValue (d : Data) : List String → Entries → Option Entries
  | [], _ => none
  | [k], es =>
    es.update k fun
      | none => some (.value d)
      | some _ => none
  | k :: k' :: ks, es =>
    es.update k fun
      | none => (Entries.putValue d (k' :: ks) []).map (.table .dotted)
      | some (.table .dotted sub) => (Entries.putValue d (k' :: ks) sub).map (.table .dotted)
      | some (.table .implied sub) =>
        if ks.isEmpty then none else (Entries.putValue d (k' :: ks) sub).map (.table .implied)
      | some (.tables ts) =>
        if ks.isEmpty then none else (onLast (Entries.putValue d (k' :: ks)) ts).map .tables
      | some _ => none

mutual
def Item.toData : Item → Data
  | .value d => d
  | .table _ es => .table (entriesToData es)
  | .tables ts => .list (tablesToData ts)

def entriesToData : List (String × Item) → List (String × Data)
  | [] => []
  | (k, i) :: rest => (k, i.toData) :: entriesToData rest

def tablesToData : List (List (String × Item)) → List Data
  | [] => []
  | t :: rest => .table (entriesToData t) :: tablesToData rest
end

end CoverageMatrix.Toml
