import CoverageMatrix.Program.Basic
import CoverageMatrix.Sha256

/-!
The coverage data of one job. Before the tests the data of an earlier run is erased, and after them
the data that they left is collected; what was collected is known by its size and digest.
-/
namespace CoverageMatrix

structure CoverageDataset where
  path : Path
  /-- The size of the data. -/
  bytes : Nat
  digest : String
deriving DecidableEq

/-- What is known of a job's coverage data. -/
structure CoverageState where
  dataFile : Path
  package : Option String
  includeTests : Bool
  /-- Whether the data of an earlier run has been erased. -/
  erased : Bool := false
  dataset : Option CoverageDataset := none
deriving DecidableEq

/-- The dataset that a file's content makes. -/
def CoverageDataset.ofContent (path : Path) (content : ByteArray) : CoverageDataset :=
  ⟨path, content.size, Sha256.hexDigest content.toList⟩

namespace CoverageState

/-- Erases the data file. That there is none is as good. -/
def erase (s : CoverageState) : Program (Except PipelineError Unit × CoverageState) := do
  match ← Program.removeFile s.dataFile with
  | .ok () | .error (.system 2) => pure (.ok (), { s with erased := true, dataset := none })
  | .error fault => pure (.error (.io fault), s)

def collect (s : CoverageState) :
    Program (Except PipelineError (Option CoverageDataset) × CoverageState) := do
  match ← Program.readFile s.dataFile with
  | .ok content =>
    let dataset := CoverageDataset.ofContent s.dataFile content
    pure (.ok (some dataset), { s with dataset := some dataset })
  | .error (.system 2) => pure (.ok none, { s with dataset := none })
  | .error fault => pure (.error (.io fault), s)

end CoverageState
end CoverageMatrix
