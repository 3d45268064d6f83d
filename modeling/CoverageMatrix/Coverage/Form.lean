import CoverageMatrix.Config.Form
import CoverageMatrix.Coverage.State

/-!
The document forms of coverage data.
-/
namespace CoverageMatrix

open Decode (Dialect Result)

/-- A value that may be absent as data; an absent one is null. -/
def Data.nullable {α : Type} (form : α → Data) : Option α → Data
  | some a => form a
  | none => .null

namespace CoverageDataset

def toData (s : CoverageDataset) : Data :=
  .table [("path", s.path.toData), ("bytes", .int s.bytes), ("digest", .text s.digest)]

def decode (dialect : Dialect) (x : Fragment) : Result CoverageDataset := do
  let bytes := Decode.natural "u64"
  let r ← Decode.record dialect "struct CoverageDataset" .ignored
    [.of "path" Path.decode, .of "bytes" bytes, .of "digest" Decode.text] x
  return {
    path := ← r.get "path" Path.decode
    bytes := ← r.get "bytes" bytes
    digest := ← r.get "digest" Decode.text }

end CoverageDataset

namespace CoverageState

def toData (s : CoverageState) : Data :=
  .table [("data_file", s.dataFile.toData), ("package", .nullable .text s.package),
    ("include_tests", .bool s.includeTests), ("erased", .bool s.erased),
    ("dataset", .nullable CoverageDataset.toData s.dataset)]

/-- Reads the state of a job's coverage data. -/
def decode (dialect : Dialect) (x : Fragment) : Result CoverageState := do
  let package := Decode.optional Decode.text
  let dataset := Decode.optional (CoverageDataset.decode dialect)
  let r ← Decode.record dialect "struct CoverageState" .ignored
    [.of "data_file" Path.decode, .of "package" package, .of "include_tests" Decode.bool,
     .of "erased" Decode.bool, .of "dataset" dataset] x
  return {
    dataFile := ← r.get "data_file" Path.decode
    package := ← r.getD "package" package none
    includeTests := ← r.get "include_tests" Decode.bool
    erased := ← r.get "erased" Decode.bool
    dataset := ← r.getD "dataset" dataset none }

end CoverageState
end CoverageMatrix
