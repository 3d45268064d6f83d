import CoverageMatrix.Matrix.Gate

/-!
# What the gate asks of a log

The gate has nothing against a log without events. Any other log it lets through exactly if the log
meets four conditions (`Gate.Clears`), whatever else stands in it. Each condition speaks of single
events or counts them, so the gate finds the same in a log whose events come in another order, or
with events between them that it does not watch.
-/
namespace CoverageMatrix.Gate

/-- An event of some title that names a phase. -/
def isAbout (title : String) (kind : PhaseKind) (e : Event) : Bool :=
  e.kind = title ∧ e.phase? = some kind.name

/-- A phase failed that comes after the outcome of the job is known. -/
def tellsLateFailure (e : Event) : Bool :=
  isAbout Event.phaseFailed .closeSession e || isAbout Event.phaseFailed .exportCoverage e

/-- What the gate asks of a log that is not empty. -/
structure Clears (log : List Event) : Prop where
  closedOnce : log.countP (isAbout Event.phaseStarted .closeSession) = 1
  finished : ∃ e ∈ log, e.kind = Event.jobFinished
  testsPassed : ∀ e ∈ log, e.kind = Event.testsCompleted →
    e.payload.entry "result_code" = .int 0
  failedLate : ∀ e ∈ log, e.kind = Event.phaseFailed → tellsLateFailure e = true

/-- The titles of the events that can make a difference to the gate. -/
def watched : List String :=
  [Event.phaseStarted, Event.testsCompleted, Event.phaseFailed, Event.jobFinished]

/-! ## One event -/

variable {e : Event}

theorem phaseOf_eq_name_iff (kind : PhaseKind) :
    phaseOf e = kind.name ↔ e.phase? = some kind.name := by
  rw [phaseOf]
  cases e.phase? with
  | none =>
    -- what stands for a missing name is the name of no phase
    have unnamed : "unknown" ≠ kind.name := by
      cases kind <;> decide
    simp [unnamed]
  | some name => simp

theorem beginsClosing_eq : beginsClosing = isAbout Event.phaseStarted .closeSession := by
  funext e
  rw [Bool.eq_iff_iff, beginsClosing, isAbout, Bool.and_eq_true, decide_eq_true_iff,
    decide_eq_true_iff, decide_eq_true_iff, phaseOf_eq_name_iff]

theorem tellsLateFailure_iff :
    tellsLateFailure e = true ↔ e.kind = Event.phaseFailed ∧ isLenient (phaseOf e) = true := by
  rw [tellsLateFailure, isAbout, isAbout, isLenient, Bool.or_eq_true, Bool.or_eq_true]
  simp only [decide_eq_true_iff, phaseOf_eq_name_iff, and_or_left]

/-- The code of an event is zero only if the event tells so: a code that is missing, is no whole
number or does not fit into 64 bits is read as minus one. -/
theorem codeOf_eq_zero_iff : codeOf e = 0 ↔ e.payload.entry "result_code" = .int 0 := by
  rw [codeOf]
  generalize e.payload.entry "result_code" = code
  constructor
  · intro zero
    cases code with
    | int n =>
      rw [Data.int64?] at zero
      split at zero
      · exact congrArg Data.int zero
      · cases zero
    | _ => cases zero
  · intro told
    rw [told]
    rfl

theorem violation?_eq_none_iff : violation? e = none ↔
    (e.kind = Event.testsCompleted → e.payload.entry "result_code" = .int 0) ∧
      (e.kind = Event.phaseFailed → tellsLateFailure e = true) := by
  have apart : Event.phaseFailed ≠ Event.testsCompleted := by decide
  rw [violation?, tellsLateFailure_iff, ← codeOf_eq_zero_iff]
  split
  · next completed =>
    rw [completed]
    split <;> simp_all [Ne.symm apart]
  · next other =>
    split
    · next failed => split <;> simp_all
    · next unfailed => simp [other, unfailed]

theorem warning?_isSome : (warning? e).isSome = tellsLateFailure e := by
  rw [Bool.eq_iff_iff, tellsLateFailure_iff, warning?]
  split <;> simp_all

section Unwatched

variable (unwatched : e.kind ∉ watched)
include unwatched

theorem violation?_of_unwatched : violation? e = none := by
  simp only [watched, List.mem_cons, List.not_mem_nil, or_false, not_or] at unwatched
  rw [violation?, if_neg unwatched.2.1, if_neg unwatched.2.2.1]

theorem warning?_of_unwatched : warning? e = none := by
  simp only [watched, List.mem_cons, List.not_mem_nil, or_false, not_or] at unwatched
  rw [warning?, if_neg]
  intro failed
  exact unwatched.2.2.1 failed.1

theorem beginsClosing_of_unwatched : beginsClosing e = false := by
  simp only [watched, List.mem_cons, List.not_mem_nil, or_false, not_or] at unwatched
  simp [beginsClosing, unwatched.1]

end Unwatched

/-! ## A whole log -/

variable {log other mixed : List Event}

theorem wholeViolations_eq_nil_iff (some_ : log ≠ []) : wholeViolations log = [] ↔
    log.countP beginsClosing = 1 ∧ ∃ e ∈ log, e.kind = Event.jobFinished := by
  have finished : (log.any (·.kind = Event.jobFinished)) = true ↔
      ∃ e ∈ log, e.kind = Event.jobFinished := by
    simp
  have isEmpty : log.isEmpty = false := by simpa using some_
  rw [wholeViolations, isEmpty, if_neg Bool.false_ne_true, List.append_eq_nil_iff, ← finished]
  split <;> split <;> simp_all

theorem violations_eq_nil_iff_clears : violations log = [] ↔ log = [] ∨ Clears log := by
  by_cases none : log = []
  · subst none
    exact iff_of_true rfl (.inl rfl)
  · rw [violations, List.append_eq_nil_iff, List.filterMap_eq_nil_iff,
      wholeViolations_eq_nil_iff none, beginsClosing_eq]
    simp only [violation?_eq_none_iff, none, false_or]
    constructor
    · rintro ⟨fine, closedOnce, finished⟩
      exact ⟨closedOnce, finished, fun e mem => (fine e mem).1, fun e mem => (fine e mem).2⟩
    · intro clears
      exact ⟨fun e mem => ⟨clears.testsPassed e mem, clears.failedLate e mem⟩, clears.closedOnce,
        clears.finished⟩

theorem length_warnings : (warnings log).length = log.countP tellsLateFailure := by
  rw [warnings, List.length_filterMap_eq_countP]
  exact List.countP_congr fun e _ => by rw [warning?_isSome]

/-- What is found event by event is found in whatever order the events come, and nothing is found in
events that are looked at by no one. -/
theorem filterMap_perm {α : Type} {find : Event → Option α} (same : mixed.Perm (log ++ other))
    (nothing : ∀ e ∈ other, find e = none) :
    (mixed.filterMap find).Perm (log.filterMap find) := by
  have passed : other.filterMap find = [] := List.filterMap_eq_nil_iff.mpr nothing
  have found := same.filterMap find
  rwa [List.filterMap_append, passed, List.append_nil] at found

section Unwatched

variable (same : mixed.Perm (log ++ other)) (unwatched : ∀ e ∈ other, e.kind ∉ watched)
include same unwatched

theorem wholeViolations_eq_of_perm (stays : log ≠ [] ∨ other = []) :
    wholeViolations mixed = wholeViolations log := by
  have closings : mixed.countP beginsClosing = log.countP beginsClosing := by
    have passed : other.countP beginsClosing = 0 := by
      rw [List.countP_eq_zero]
      intro e mem
      simp [beginsClosing_of_unwatched (unwatched e mem)]
    rw [same.countP_eq, List.countP_append, passed, Nat.add_zero]
  have finished : mixed.any (·.kind = Event.jobFinished) =
      log.any (·.kind = Event.jobFinished) := by
    have passed : other.any (·.kind = Event.jobFinished) = false := by
      rw [List.any_eq_false]
      intro e mem title
      exact unwatched e mem (by simp [watched, of_decide_eq_true title])
    rw [same.any_eq, List.any_append, passed, Bool.or_false]
  have isEmpty : mixed.isEmpty = log.isEmpty := by
    rw [same.isEmpty_eq]
    rcases stays with some_ | rfl
    · rw [Bool.eq_iff_iff, List.isEmpty_iff, List.isEmpty_iff, List.append_eq_nil_iff]
      simp [some_]
    · rw [List.append_nil]
  rw [wholeViolations, wholeViolations, closings, finished, isEmpty]

theorem violations_perm (stays : log ≠ [] ∨ other = []) :
    (violations mixed).Perm (violations log) := by
  rw [violations, violations, wholeViolations_eq_of_perm same unwatched stays]
  refine List.Perm.append_right _ (filterMap_perm same ?_)
  intro e mem
  exact violation?_of_unwatched (unwatched e mem)

theorem warnings_perm : (warnings mixed).Perm (warnings log) := by
  refine filterMap_perm same ?_
  intro e mem
  exact warning?_of_unwatched (unwatched e mem)

end Unwatched

/-! ## All jobs -/

/-- A job that recorded nothing has crashed, if it tells why. -/
def crash? (r : JobResult) : Option Violation :=
  if r.events.isEmpty then r.failure.map .crashed else none

theorem jobViolations_split (r : JobResult) :
    jobViolations r = violations r.events ++ (crash? r).toList := by
  rw [jobViolations, crash?]
  cases events : r.events with
  | nil => cases r.failure <;> rfl
  | cons e rest => rfl

theorem length_jobViolations (r : JobResult) : (jobViolations r).length =
    (violations r.events).length + if r.events.isEmpty && r.failure.isSome then 1 else 0 := by
  rw [jobViolations_split, List.length_append, crash?]
  cases r.events <;> cases r.failure <;> rfl

theorem length_evaluate (jobs : List JobResult) : (evaluate jobs).violations.length =
    (jobs.flatMap fun r => violations r.events).length +
      jobs.countP fun r => r.events.isEmpty && r.failure.isSome := by
  induction jobs with
  | nil => rfl
  | cons r rest ih =>
    have first : (evaluate (r :: rest)).violations.length =
        (jobViolations r).length + (evaluate rest).violations.length := by
      simp [evaluate]
    rw [first, ih, length_jobViolations, List.flatMap_cons, List.length_append, List.countP_cons]
    omega

/-- The gate finds no violation in a log exactly if the log is empty or meets what the gate asks,
warns of each late failure once, and finds and warns of the same when the events are put in another
order or events that it does not watch come between them. Over jobs it gives what it finds in each
of their logs, in their order, and one violation more for a job that recorded nothing and failed. -/
theorem judges_logs (log : List Event) (jobs : List JobResult) :
    (violations log = [] ↔ log = [] ∨ Clears log) ∧
    (warnings log).length = log.countP tellsLateFailure ∧
    (∀ other mixed, mixed.Perm (log ++ other) → (∀ e ∈ other, e.kind ∉ watched) →
      log ≠ [] ∨ other = [] →
        (violations mixed).Perm (violations log) ∧ (warnings mixed).Perm (warnings log)) ∧
    (evaluate jobs).violations = (jobs.flatMap fun r =>
      (violations r.events ++ (crash? r).toList).map (·.message r.job.id.text)) ∧
    (evaluate jobs).warnings = (jobs.flatMap fun r =>
      (warnings r.events).map (·.message r.job.id.text)) ∧
    (evaluate jobs).violations.length = (jobs.flatMap fun r => violations r.events).length +
      jobs.countP fun r => r.events.isEmpty && r.failure.isSome := by
  refine ⟨violations_eq_nil_iff_clears, length_warnings, ?_, ?_, rfl, length_evaluate jobs⟩
  · intro other mixed same unwatched stays
    exact ⟨violations_perm same unwatched stays, warnings_perm same unwatched⟩
  · simp only [← jobViolations_split]
    rfl

/-- A log in which the tests tell no code, the export failed, and nothing says that the job ended. -/
def muddledLog : List Event :=
  [⟨1, Event.testsCompleted, .list [.text "result_code"], ""⟩,
   ⟨2, Event.phaseStarted, .record [("phase", .text "close_session")], ""⟩,
   ⟨3, Event.phaseFailed, .record [("phase", .text "export_coverage"), ("error", .int 1)], ""⟩]

/-- An event between the others changes nothing, although it looks like some of them. -/
theorem judges_logs_muddled :
    let other : List Event := [⟨4, "phase_passed", .record [("phase", .text "close_session")], ""⟩]
    (other ++ muddledLog).Perm (muddledLog ++ other) ∧ (∀ e ∈ other, e.kind ∉ watched) ∧
      muddledLog ≠ [] ∧ violations muddledLog = [.testsFailed (-1), .neverFinished] ∧
      (violations (other ++ muddledLog)).Perm [.testsFailed (-1), .neverFinished] := by
  intro other
  have same : (other ++ muddledLog).Perm (muddledLog ++ other) := List.perm_append_comm
  have unwatched : ∀ e ∈ other, e.kind ∉ watched := by decide
  have some_ : muddledLog ≠ [] := List.cons_ne_nil _ _
  have found : violations muddledLog = [.testsFailed (-1), .neverFinished] := by decide
  obtain ⟨-, -, mixing, -⟩ := judges_logs muddledLog []
  have alike := (mixing other (other ++ muddledLog) same unwatched (.inl some_)).1
  rw [found] at alike
  exact ⟨same, unwatched, some_, found, alike⟩

end CoverageMatrix.Gate
