import CoverageMatrix.Job.Result

/-!
The gate: whether a matrix may pass, judged from the event logs of its jobs alone. Failures of the
closing step and of the export are warnings; everything else that went wrong is a violation.
-/
namespace CoverageMatrix

/-- What a job did that keeps the matrix from passing. -/
inductive Violation where
  | testsFailed (code : Int)
  | aborted (phase reason : String)
  /-- The session was not closed exactly once. -/
  | closings (count : Nat)
  | neverFinished
  | crashed (failure : String)
deriving DecidableEq

def Violation.message (job : String) : Violation → String
  | testsFailed code =>
    "Job '" ++ job ++ "' tests returned non-zero result code: " ++ toString code
  | aborted phase reason => "Job '" ++ job ++ "' aborted during " ++ phase ++ ": " ++ reason
  | closings count =>
    "Job '" ++ job ++ "' closed its reporting session " ++ toString count
      ++ " time(s), expected exactly once"
  | neverFinished => "Job '" ++ job ++ "' never finished"
  | crashed failure => "Job '" ++ job ++ "' crashed: " ++ failure

/-- A failure that does not count against a job. -/
structure GateWarning where
  phase : String
  reason : String
deriving DecidableEq

def GateWarning.message (job : String) (w : GateWarning) : String :=
  "Job '" ++ job ++ "' " ++ w.phase ++ " failed: " ++ w.reason

structure GateVerdict where
  passed : Bool
  violations : List String
  warnings : List String
  message : String
deriving DecidableEq

namespace Gate

/-- The phase that an event is about, as messages name it. -/
def phaseOf (e : Event) : String :=
  e.phase?.getD "unknown"

/-- Why a phase failed, as messages tell it. -/
def reasonOf (e : Event) : String :=
  (e.payload.entry "error").text?.getD "Unknown error"

/-- The code that tests gave; a job that tells none counts as failed. -/
def codeOf (e : Event) : Int :=
  (e.payload.entry "result_code").int64?.getD (-1)

/-- Whether failures of a phase are only warned of. -/
def isLenient (phase : String) : Bool :=
  phase = PhaseKind.closeSession.name || phase = PhaseKind.exportCoverage.name

def beginsClosing (e : Event) : Bool :=
  e.kind = Event.phaseStarted && phaseOf e = PhaseKind.closeSession.name

def violation? (e : Event) : Option Violation :=
  if e.kind = Event.testsCompleted then
    if codeOf e = 0 then none else some (.testsFailed (codeOf e))
  else if e.kind = Event.phaseFailed then
    if isLenient (phaseOf e) then none else some (.aborted (phaseOf e) (reasonOf e))
  else none

def warning? (e : Event) : Option GateWarning :=
  if e.kind = Event.phaseFailed ∧ isLenient (phaseOf e) then some ⟨phaseOf e, reasonOf e⟩ else none

/-- The violations of a log as a whole. A log without events has none. -/
def wholeViolations (log : List Event) : List Violation :=
  if log.isEmpty then []
  else
    let closings := log.countP beginsClosing
    (if closings = 1 then [] else [.closings closings])
      ++ if log.any (·.kind = Event.jobFinished) then [] else [.neverFinished]

def violations (log : List Event) : List Violation :=
  log.filterMap violation? ++ wholeViolations log

def warnings (log : List Event) : List GateWarning :=
  log.filterMap warning?

/-- The violations of a job. One without any events has crashed, if it tells why. -/
def jobViolations (r : JobResult) : List Violation :=
  violations r.events ++
    match r.events, r.failure with
    | [], some failure => [.crashed failure]
    | _, _ => []

def evaluate (jobs : List JobResult) : GateVerdict :=
  let violations := jobs.flatMap fun r => (jobViolations r).map (·.message r.job.id.text)
  let warnings := jobs.flatMap fun r => (warnings r.events).map (·.message r.job.id.text)
  { passed := violations.isEmpty
    violations := violations
    warnings := warnings
    message :=
      if violations.isEmpty then "All " ++ toString jobs.length ++ " job(s) passed"
      else "Gate failed with " ++ toString violations.length ++ " violation(s)" }

end Gate
end CoverageMatrix
