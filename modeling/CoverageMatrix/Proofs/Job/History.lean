import CoverageMatrix.Job.Pipeline

/-!
# Job histories

What a job has come to, told from how its phases went and from nothing else. A history holds the
outcomes of the phases in order; every part of a job's result is a short function of it.
-/
namespace CoverageMatrix

/-- Whether a failure of such a phase aborts the job. -/
def PhaseKind.isSetup : PhaseKind → Bool
  | install | openSession | testRun => true
  | closeSession | exportCoverage => false

def Event.numbered (time : String) (happenings : List Happening) : List Event :=
  happenings.mapIdx fun i h => ⟨i + 1, h.kind, h.payload, time⟩

/-- How phases of a job went, in order: the kind of each, and what it ended in, if it was run. -/
abbrev History := List (PhaseKind × Option PhaseOutcome)

namespace History

/-! ## What a history tells -/

/-- The failures of phases of some kinds, with their reasons. -/
def failures (h : History) (kinds : PhaseKind → Bool) : List (PhaseKind × String) :=
  h.filterMap fun
    | (kind, some (.failed reason)) => if kinds kind then some (kind, reason) else none
    | _ => none

/-- The first failure of a setup phase: it aborts the job. -/
def abort? (h : History) : Option (PhaseKind × String) :=
  (h.failures PhaseKind.isSetup).head?

def codes (h : History) : List Int :=
  h.filterMap fun
    | (_, some (.completed code)) => some code
    | _ => none

/-- The code of a job: minus one if it was aborted or no phase completed, else the first code with
which a phase completed. -/
def code (h : History) : Int :=
  if h.abort?.isSome then setupFailureCode else h.codes.head?.getD setupFailureCode

/-- Whether a phase of a kind is run after a history: one of the setup if none of these failed, one
that closes the session in any case, and an export if no setup failed and the first code is zero. -/
def admits (h : History) : PhaseKind → Bool
  | .install | .openSession | .testRun => h.abort?.isNone
  | .closeSession => true
  | .exportCoverage => h.abort?.isNone && h.codes.head? = some 0

/-- Each phase of the history was run if and only if the history before it lets it. -/
def Lawful (h : History) : Prop :=
  ∀ (before after : History) (kind : PhaseKind) (o : Option PhaseOutcome),
    h = before ++ (kind, o) :: after → o.isSome = before.admits kind

def states (h : History) : List JobState :=
  h.filterMap fun
    | (kind, some .passed) | (kind, some (.completed _)) => some kind.reached
    | _ => none

def record : PhaseKind × Option PhaseOutcome → PhaseRecord
  | (kind, none) => ⟨kind, .skipped, none, none, 0⟩
  | (kind, some .passed) => ⟨kind, .passed, none, none, 0⟩
  | (kind, some (.completed code)) => ⟨kind, .completed, some code, none, 0⟩
  | (kind, some (.failed reason)) => ⟨kind, .failed, none, some reason, 0⟩

def happenings : PhaseKind × Option PhaseOutcome → List Happening
  | (kind, none) => [.phaseSkipped kind]
  | (kind, some .passed) => [.phaseStarted kind, .phasePassed kind 0]
  | (kind, some (.completed code)) => [.phaseStarted kind, .testsCompleted kind code 0]
  | (kind, some (.failed reason)) => [.phaseStarted kind, .phaseFailed kind reason 0]

def lastFailure? (h : History) (kind : PhaseKind) : Option String :=
  (h.failures (· = kind)).getLast?.map Prod.snd

def success (h : History) : Bool :=
  h.abort?.isNone && h.codes.head? = some 0

def log (h : History) (job : Job) (stamp : Stamp) : List Happening :=
  .jobStarted job.id job.version stamp.runId :: h.flatMap happenings

/-- The result of a job with this history; the findings are those that its phases left. -/
def result (h : History) (job : Job) (findings : Findings) (stamp : Stamp) : JobResult where
  job := job
  runId := stamp.runId
  success := h.success
  exitCode := h.code
  abortedAt := h.abort?.map Prod.fst
  failure := h.abort?.map Prod.snd
  reportError := h.lastFailure? .closeSession
  exportError := h.lastFailure? .exportCoverage
  states := .start :: h.states ++ [.finish]
  phases := h.map record
  events := Event.numbered stamp.time (h.log job stamp ++ [.jobFinished h.success h.code 0])
  coverage := findings.coverage.dataset
  reportPath := findings.reportPath
  startedAt := stamp.time
  durationMs := 0

/-- What the next phase of a job sees that began in `ctx`. -/
def contextOf (h : History) (ctx : JobContext) (findings : Findings) : JobContext :=
  { ctx with
    findings := findings
    resultCode := h.codes.head?
    aborted := h.abort?.isSome
    env := match h.codes.head? with
      | none => ctx.env
      | some code => ctx.env.insert testResultVariable (toString code) }

/-! ## The progress of a job as a function of its history -/

/-- How far a job has come that began in `ctx`. -/
def progress (h : History) (ctx : JobContext) (stamp : Stamp) (findings : Findings) :
    JobProgress where
  context := h.contextOf ctx findings
  log := ⟨Event.numbered stamp.time (h.log ctx.job stamp)⟩
  states := .start :: h.states
  records := h.map record
  abortedAt := h.abort?.map Prod.fst
  failure := h.abort?.map Prod.snd
  reportError := h.lastFailure? .closeSession
  exportError := h.lastFailure? .exportCoverage

/-! ### Longer histories -/

theorem failures_append (h g : History) (kinds : PhaseKind → Bool) :
    failures (h ++ g) kinds = h.failures kinds ++ g.failures kinds :=
  List.filterMap_append

theorem codes_append (h g : History) : codes (h ++ g) = h.codes ++ g.codes :=
  List.filterMap_append

theorem abort?_append (h g : History) : abort? (h ++ g) = h.abort?.or g.abort? := by
  simp only [abort?, failures_append, List.head?_append]

theorem abort?_failed (kind : PhaseKind) (reason : String) :
    abort? [(kind, some (.failed reason))] =
      if kind.isSetup then some (kind, reason) else none := by
  cases kind <;> rfl

theorem lastFailure?_failed (kind other : PhaseKind) (reason : String) :
    lastFailure? [(kind, some (.failed reason))] other =
      if kind = other then some reason else none := by
  cases kind <;> cases other <;> rfl

theorem lastFailure?_append (h g : History) (kind : PhaseKind) :
    lastFailure? (h ++ g) kind = (g.lastFailure? kind).or (h.lastFailure? kind) := by
  simp only [lastFailure?, failures_append, List.getLast?_append, Option.map_or]

theorem states_append (h g : History) : states (h ++ g) = h.states ++ g.states :=
  List.filterMap_append

theorem log_append (h g : History) (job : Job) (stamp : Stamp) :
    log (h ++ g) job stamp = h.log job stamp ++ g.flatMap happenings := by
  simp [log]

theorem Lawful.nil : Lawful [] := by
  intro before after kind o h
  simp at h

theorem Lawful.concat {h : History} {kind : PhaseKind} {o : Option PhaseOutcome}
    (lawful : h.Lawful) (ho : o.isSome = h.admits kind) : Lawful (h ++ [(kind, o)]) := by
  intro before after kind' o' eq
  rcases after.eq_nil_or_concat with rfl | ⟨after, last, rfl⟩
  · obtain ⟨rfl, last⟩ := List.append_inj' eq rfl
    cases last
    exact ho
  · rw [List.concat_eq_append, ← List.cons_append, ← List.append_assoc] at eq
    exact lawful before after kind' o' (List.append_inj' eq rfl).1

end History

theorem EventLog.report_numbered (time : String) (hs : List Happening) (h : Happening) :
    EventLog.report ⟨Event.numbered time hs⟩ h time = ⟨Event.numbered time (hs ++ [h])⟩ := by
  simp [EventLog.report, EventLog.record, EventLog.size, Event.numbered]

end CoverageMatrix
