import CoverageMatrix.Job.Result

/-!
How a matrix ended: the results of its jobs, in the order of the matrix.
-/
namespace CoverageMatrix

structure MatrixResult where
  buildId : String
  configDigest : String
  jobs : List JobResult
  startedAt : String
  durationMs : Nat

namespace MatrixResult

def success (r : MatrixResult) : Bool :=
  r.jobs.all (·.success)

/-- How many jobs succeeded. -/
def passedCount (r : MatrixResult) : Nat :=
  r.jobs.countP (·.success)

def failedCount (r : MatrixResult) : Nat :=
  r.jobs.countP (!·.success)

/-- The exit status of the matrix: that of the first job that did not succeed, or one if no process
could end with it. -/
def exitCode (r : MatrixResult) : Int :=
  match r.jobs.find? (!·.success) with
  | none => 0
  | some job => if 1 ≤ job.exitCode ∧ job.exitCode ≤ 255 then job.exitCode else 1

end MatrixResult
end CoverageMatrix
