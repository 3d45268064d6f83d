import CoverageMatrix.Job.Context

/-!
Phases: the parts of a job. A phase can say beforehand what it will do, and it ends in an outcome; a
failure is such an outcome and does not stop the program that runs the phase.
-/
namespace CoverageMatrix

inductive PhaseOutcome where
  | passed
  | failed (reason : String)
  /-- The tests were run and gave a code. -/
  | completed (code : Int)
deriving DecidableEq

structure Phase where
  kind : PhaseKind
  /-- The steps that the phase will take, one a line. -/
  describe : JobContext → List String
  /-- Runs the phase: its outcome, and the findings of the job as they are then. A phase is taken to
  leave the rest of the context alone: the result code and the abort are set by the pipeline only,
  and the mark that closing has begun by the closing phase, as a note. -/
  run : JobContext → Program (PhaseOutcome × Findings)

end CoverageMatrix
