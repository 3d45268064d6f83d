import CoverageMatrix.Data.Basic
import CoverageMatrix.Phase.Basic

/-!
The event log of a job. Events are numbered from one without gaps; what an event says beside its
kind is a piece of data, whose tables are sorted by key.
-/
namespace CoverageMatrix

structure Event where
  /-- The place in the log, counted from one. -/
  seq : Nat
  kind : String
  payload : Data
  timestamp : String

namespace Event

def jobStarted : String := "job_started"
def phaseStarted : String := "phase_started"
def phasePassed : String := "phase_passed"
def phaseFailed : String := "phase_failed"
def phaseSkipped : String := "phase_skipped"
def testsCompleted : String := "tests_completed"
def jobFinished : String := "job_finished"

/-- The phase that an event is about, if it names one. -/
def phase? (e : Event) : Option String :=
  (e.payload.entry "phase").text?

end Event

/-- What happens in a job, before it has a place in a log. -/
inductive Happening where
  | jobStarted (job : JobId) (version runId : String)
  | phaseSkipped (kind : PhaseKind)
  | phaseStarted (kind : PhaseKind)
  | phasePassed (kind : PhaseKind) (durationMs : Nat)
  | testsCompleted (kind : PhaseKind) (code : Int) (durationMs : Nat)
  | phaseFailed (kind : PhaseKind) (reason : String) (durationMs : Nat)
  | jobFinished (success : Bool) (exitCode : Int) (durationMs : Nat)

namespace Happening

def kind : Happening → String
  | jobStarted _ _ _ => Event.jobStarted
  | phaseSkipped _ => Event.phaseSkipped
  | phaseStarted _ => Event.phaseStarted
  | phasePassed _ _ => Event.phasePassed
  | testsCompleted _ _ _ => Event.testsCompleted
  | phaseFailed _ _ _ => Event.phaseFailed
  | jobFinished _ _ _ => Event.jobFinished

/-- What the event that reports a happening says. -/
def payload : Happening → Data
  | jobStarted job version runId =>
    .record [("job", .text job.text), ("version", .text version), ("run_id", .text runId)]
  | phaseSkipped k | phaseStarted k => .record [("phase", .text k.name)]
  | phasePassed k ms => .record [("phase", .text k.name), ("duration_ms", .int ms)]
  | testsCompleted k code ms =>
    .record [("phase", .text k.name), ("result_code", .int code), ("duration_ms", .int ms)]
  | phaseFailed k reason ms =>
    .record [("phase", .text k.name), ("policy", .text k.policy.name), ("error", .text reason),
      ("duration_ms", .int ms)]
  | jobFinished success code ms =>
    .record [("success", .bool success), ("exit_code", .int code), ("duration_ms", .int ms)]

end Happening

structure EventLog where
  events : List Event

namespace EventLog

def empty : EventLog := ⟨[]⟩

def size (log : EventLog) : Nat :=
  log.events.length

def isEmpty (log : EventLog) : Bool :=
  log.events.isEmpty

/-- The log with one more event, which gets the next number. -/
def record (log : EventLog) (kind : String) (payload : Data) (time : String) : EventLog :=
  ⟨log.events ++ [⟨log.size + 1, kind, payload, time⟩]⟩

def report (log : EventLog) (h : Happening) (time : String) : EventLog :=
  log.record h.kind h.payload time

@[simp] theorem size_record (log : EventLog) (kind : String) (payload : Data) (time : String) :
    (log.record kind payload time).size = log.size + 1 := by
  simp [size, record]

@[simp] theorem events_report (log : EventLog) (h : Happening) (time : String) :
    (log.report h time).events = log.events ++ [⟨log.size + 1, h.kind, h.payload, time⟩] := rfl

@[simp] theorem isEmpty_record (log : EventLog) (kind : String) (payload : Data) (time : String) :
    (log.record kind payload time).isEmpty = false := by
  simp [isEmpty, record]

end EventLog
end CoverageMatrix
