import CoverageMatrix.Coverage.State
import CoverageMatrix.Job.Events
import CoverageMatrix.Job.Stamp

/-!
What is known of a job that has ended: whether it succeeded, with which code, and how each of its
phases went.
-/
namespace CoverageMatrix

inductive PhaseStatus where
  | passed
  | failed
  | completed
  | skipped
deriving DecidableEq

namespace PhaseStatus

def name : PhaseStatus → String
  | passed => "passed"
  | failed => "failed"
  | completed => "completed"
  | skipped => "skipped"

def byName : List (String × PhaseStatus) :=
  [passed, failed, completed, skipped].map fun s => (s.name, s)

end PhaseStatus

structure PhaseRecord where
  kind : PhaseKind
  status : PhaseStatus
  /-- The code that the tests gave, if the phase ran them. -/
  resultCode : Option Int := none
  /-- Why the phase failed, if it did. -/
  detail : Option String := none
  durationMs : Nat := 0
deriving DecidableEq

namespace PhaseRecord

def skipped (kind : PhaseKind) : PhaseRecord :=
  { kind := kind, status := .skipped }

def ofOutcome (kind : PhaseKind) : PhaseOutcome → PhaseRecord
  | .passed => { kind := kind, status := .passed }
  | .failed reason => { kind := kind, status := .failed, detail := some reason }
  | .completed code => { kind := kind, status := .completed, resultCode := some code }

end PhaseRecord

structure JobResult where
  job : Job
  runId : String
  /-- Whether all was set up and the tests gave zero. -/
  success : Bool
  exitCode : Int
  abortedAt : Option PhaseKind
  failure : Option String
  /-- Why the session could not be closed; it does not count against the job. -/
  reportError : Option String
  /-- Why the coverage could not be exported; it does not count against the job. -/
  exportError : Option String
  states : List JobState
  phases : List PhaseRecord
  events : List Event
  coverage : Option CoverageDataset
  reportPath : Option Path
  startedAt : String
  durationMs : Nat

namespace JobResult

def reached (r : JobResult) (s : JobState) : Bool :=
  r.states.contains s

/-- How often the closing step was run. -/
def sessionCloseCount (r : JobResult) : Nat :=
  (r.phases.filter fun p => p.kind = .closeSession ∧ p.status ≠ .skipped).length

def phase? (r : JobResult) (kind : PhaseKind) : Option PhaseRecord :=
  r.phases.find? (·.kind = kind)

/-- The result of a job that broke down. -/
def crashed (job : Job) (reason : String) (stamp : Stamp) : JobResult where
  job := job
  runId := stamp.runId
  success := false
  exitCode := setupFailureCode
  abortedAt := none
  failure := some reason
  reportError := none
  exportError := none
  states := [.start]
  phases := []
  events := []
  coverage := none
  reportPath := none
  startedAt := stamp.time
  durationMs := 0

end JobResult
end CoverageMatrix
