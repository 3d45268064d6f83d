import CoverageMatrix.Toml.Reader

/-!
A TOML document as data: its lines fill one table, in which headers open further ones.
-/
namespace CoverageMatrix.Toml

/-- A document that has been read up to some line: its entries, and the path of the open table. -/
structure Draft where
  entries : Entries
  current : List String

def Draft.add (draft : Draft) : Line → Option Draft
  | .blank => some draft
  | .entry k d =>
    (draft.entries.within (Entries.putValue d k) draft.current).map fun es =>
      { draft with entries := es }
  | .table k =>
    (draft.entries.within (Entries.openTable (k.getLastD "")) k.dropLast).map fun es => ⟨es, k⟩
  | .listTable k =>
    (draft.entries.within (Entries.openListTable (k.getLastD "")) k.dropLast).map fun es => ⟨es, k⟩

def ofLines? (lines : List Line) : Option Data :=
  (lines.foldlM Draft.add ⟨[], []⟩).map fun draft => .table (entriesToData draft.entries)

/-- Reads a document. A mark of the byte order at its beginning is passed over. -/
def parse? (text : String) : Option Data :=
  let cs := match text.toList with
    | '\uFEFF' :: rest => rest
    | cs => cs
  (lines? (cs.length + 1) cs).bind ofLines?

end CoverageMatrix.Toml
