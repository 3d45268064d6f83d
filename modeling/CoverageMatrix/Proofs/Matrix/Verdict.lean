import CoverageMatrix.Proofs.Job.Course
import CoverageMatrix.Proofs.Matrix.Gate
import CoverageMatrix.Proofs.Matrix.Settling
import CoverageMatrix.Proofs.Phase.Standard

/-!
# The gate and the results

The gate reads the event log of a job and nothing else. A log tells the history of its job, so that
the gate finds a violation exactly if a setup phase failed or a phase completed with a code other
than zero (`Gate.jobViolations_result`). In the standard pipeline that is so exactly if the job did
not succeed.
-/
namespace CoverageMatrix

/-! ## Events without number and time -/

/-- An event that reports a happening, with nothing known of its place and time. -/
def Happening.event (h : Happening) : Event :=
  ⟨0, h.kind, h.payload, ""⟩

theorem Event.map_numbered (time : String) (happenings : List Happening) :
    (numbered time happenings).map (fun e => (⟨0, e.kind, e.payload, ""⟩ : Event)) =
      happenings.map Happening.event := by
  apply List.ext_getElem <;> simp [numbered, Happening.event]

namespace Gate

/-- The gate looks neither at the numbers of events nor at their times. -/
theorem violations_numbered (time : String) (happenings : List Happening) :
    violations (Event.numbered time happenings) = violations (happenings.map Happening.event) := by
  rw [← Event.map_numbered time, violations, violations, wholeViolations, wholeViolations]
  simp only [List.filterMap_map, List.countP_map, List.any_map, List.isEmpty_map]
  rfl

/-! ## One happening -/

/-- Whether the gate finds nothing wrong with what happened. -/
def isFine : Happening → Bool
  | .testsCompleted _ code _ => code = 0
  | .phaseFailed kind _ _ => !kind.isSetup
  | _ => true

def startsClosing : Happening → Bool
  | .phaseStarted .closeSession => true
  | _ => false

theorem codeOf_event (kind : PhaseKind) (code : Int) (ms : Nat) :
    codeOf (Happening.testsCompleted kind code ms).event = 0 ↔ code = 0 := by
  have told : (Happening.testsCompleted kind code ms).event.payload.entry "result_code" =
      .int code := by
    simp [Happening.event, Happening.payload, Data.entry_record, List.lookup_cons]
  rw [codeOf_eq_zero_iff, told, Data.int.injEq]

theorem phaseOf_event_failed (kind : PhaseKind) (reason : String) (ms : Nat) :
    phaseOf (Happening.phaseFailed kind reason ms).event = kind.name := by
  simp [phaseOf, Event.phase?, Happening.event, Happening.payload, Data.entry_record,
    List.lookup_cons, Data.text?]

theorem phaseOf_event_started (kind : PhaseKind) :
    phaseOf (Happening.phaseStarted kind).event = kind.name := by
  simp [phaseOf, Event.phase?, Happening.event, Happening.payload, Data.entry_record, Data.text?]

theorem isLenient_name (kind : PhaseKind) : isLenient kind.name = !kind.isSetup := by
  cases kind <;> decide

theorem violation?_event (h : Happening) : violation? h.event = none ↔ isFine h = true := by
  cases h with
  | testsCompleted kind code ms =>
    have completed : (Happening.testsCompleted kind code ms).event.kind = Event.testsCompleted := rfl
    rw [violation?, if_pos completed, isFine, decide_eq_true_iff, ← codeOf_event kind code ms]
    split <;> simp_all
  | phaseFailed kind reason ms =>
    have failed : (Happening.phaseFailed kind reason ms).event.kind = Event.phaseFailed := rfl
    have other : Event.phaseFailed ≠ Event.testsCompleted := by decide
    rw [violation?, failed, if_neg other, if_pos rfl, phaseOf_event_failed, isLenient_name, isFine]
    cases kind.isSetup <;> simp
  | jobStarted | phaseSkipped | phaseStarted | phasePassed | jobFinished =>
    simp [violation?, isFine, Happening.event, Happening.kind, Event.testsCompleted,
      Event.phaseFailed, Event.jobStarted, Event.phaseSkipped, Event.phaseStarted,
      Event.phasePassed, Event.jobFinished]

theorem beginsClosing_event (h : Happening) : beginsClosing h.event = startsClosing h := by
  cases h with
  | phaseStarted kind =>
    rw [beginsClosing, phaseOf_event_started]
    cases kind <;> rfl
  | _ =>
    simp [beginsClosing, startsClosing, Happening.event, Happening.kind, Event.testsCompleted,
      Event.phaseFailed, Event.jobStarted, Event.phaseSkipped, Event.phaseStarted,
      Event.phasePassed, Event.jobFinished]

theorem countP_beginsClosing (happenings : List Happening) :
    (happenings.map Happening.event).countP beginsClosing = happenings.countP startsClosing := by
  rw [List.countP_map]
  exact List.countP_congr fun h _ => by simp [beginsClosing_event]

/-! ## One job -/

/-- The gate finds nothing wrong in a log that is not empty if nothing wrong happened, the closing
phase began once, and the job was reported to have finished. -/
theorem violations_eq_nil_iff {happenings : List Happening} (some_ : happenings ≠ []) :
    violations (happenings.map Happening.event) = [] ↔
      (∀ h ∈ happenings, isFine h = true) ∧ happenings.countP startsClosing = 1 ∧
        ∃ h ∈ happenings, h.kind = Event.jobFinished := by
  have fine : (∀ e ∈ happenings.map Happening.event, violation? e = none) ↔
      ∀ h ∈ happenings, isFine h = true := by
    simp only [List.forall_mem_map, violation?_event]
  have finished : (∃ e ∈ happenings.map Happening.event, e.kind = Event.jobFinished) ↔
      ∃ h ∈ happenings, h.kind = Event.jobFinished := by
    simp only [List.mem_map, exists_exists_and_eq_and]
    rfl
  have told : happenings.map Happening.event ≠ [] := by simpa using some_
  rw [violations, List.append_eq_nil_iff, List.filterMap_eq_nil_iff, fine,
    wholeViolations_eq_nil_iff told, countP_beginsClosing, finished]

end Gate

/-! ## Histories -/

namespace History

/-- What is reported of a history is fine if no setup phase failed and no phase completed with a
code other than zero. -/
theorem happenings_fine_iff (h : History) :
    (∀ x ∈ h.flatMap happenings, Gate.isFine x = true) ↔
      h.abort? = none ∧ ∀ code ∈ h.codes, code = 0 := by
  induction h with
  | nil => simp [abort?, failures, codes]
  | cons e rest ih =>
    have split : e :: rest = [e] ++ rest := rfl
    rw [List.flatMap_cons, List.forall_mem_append, ih, split, abort?_append, codes_append,
      List.forall_mem_append]
    generalize abort? rest = abort, History.codes rest = codes
    obtain ⟨kind, _ | _ | reason | code⟩ := e
    · simp [happenings, Gate.isFine, abort?, failures, History.codes]
    · simp [happenings, Gate.isFine, abort?, failures, History.codes]
    · rw [abort?_failed]
      cases h : kind.isSetup <;> simp [happenings, Gate.isFine, h, History.codes]
    · simp [happenings, Gate.isFine, abort?, failures, History.codes, and_left_comm]

theorem countP_startsClosing (h : History) :
    (h.flatMap happenings).countP Gate.startsClosing =
      h.countP fun e => e.1 = .closeSession && e.2.isSome := by
  induction h with
  | nil => rfl
  | cons e rest ih =>
    rw [List.flatMap_cons, List.countP_append, ih, List.countP_cons, Nat.add_comm]
    congr 1
    obtain ⟨kind, _ | _ | reason | code⟩ := e <;> cases kind <;> rfl

theorem Lawful.closeSession_isSome {h : History} (lawful : h.Lawful) {o : Option PhaseOutcome}
    (mem : (.closeSession, o) ∈ h) : o.isSome = true := by
  obtain ⟨before, after, eq⟩ := List.append_of_mem mem
  exact lawful before after .closeSession o eq

end History

/-! ## Jobs that came to their end -/

variable {ctx : JobContext} {h : History} {f g : Findings} {t : Transcript}

/-- A job that comes to its end runs its closing phase once. -/
theorem Course.countP_closers {p : JobPipeline} (course : Course ctx [] f p.phases t (some (h, g))) :
    (h.countP fun e => e.1 = .closeSession && e.2.isSome) = 1 := by
  obtain ⟨kinds, lawful⟩ := course.kinds_lawful .nil
  have run : (h.countP fun e => e.1 = .closeSession && e.2.isSome) =
      (h.map Prod.fst).countP (· = .closeSession) := by
    rw [List.countP_map]
    refine List.countP_congr fun e mem => ?_
    obtain ⟨kind, o⟩ := e
    simp only [Function.comp_apply, Bool.and_eq_true, decide_eq_true_eq, and_iff_left_iff_imp]
    rintro rfl
    exact lawful.closeSession_isSome mem
  rw [run, kinds, List.map_nil, List.nil_append, List.countP_map, List.countP_eq_length_filter]
  exact p.closesOnce

/-- The gate finds no violation in a job that came to its end exactly if no setup phase failed and
no phase completed with a code other than zero. -/
theorem Gate.jobViolations_result {p : JobPipeline} {job : Job} {stamp : Stamp}
    (course : Course ctx [] f p.phases t (some (h, g))) :
    jobViolations (h.result job g stamp) = [] ↔
      h.abort? = none ∧ ∀ code ∈ h.codes, code = 0 := by
  have violations : jobViolations (h.result job g stamp) = violations (Event.numbered stamp.time
      (h.log job stamp ++ [.jobFinished h.success h.code 0])) := by
    simp [jobViolations, History.result, Event.numbered, History.log]
  rw [violations, violations_numbered, violations_eq_nil_iff (by simp), ← h.happenings_fine_iff]
  simp only [History.log, List.cons_append, List.forall_mem_cons, List.forall_mem_append,
    List.countP_cons, List.countP_append, h.countP_startsClosing, course.countP_closers]
  simp [isFine, startsClosing, Happening.kind]

/-! ### In the standard pipeline -/

theorem History.codes_eq_nil
    (allows : ∀ kind o, (kind, some o) ∈ h → PhaseKind.allows kind o = true)
    (kinds : .testRun ∉ h.map Prod.fst) : h.codes = [] := by
  rw [codes, List.filterMap_eq_nil_iff]
  rintro ⟨kind, _ | _ | reason | code⟩ mem
  · rfl
  · rfl
  · rfl
  · have allowed := allows kind (.completed code) mem
    cases kind with
    | testRun => exact absurd (List.mem_map_of_mem mem) kinds
    | install | openSession | closeSession | exportCoverage => cases allowed

/-- The gate finds no violation in a job of the standard pipeline exactly if the job succeeded. -/
theorem Gate.jobViolations_standard {c : Config} {job : Job} {stamp : Stamp}
    (course : Course ctx [] f (JobPipeline.standard c).phases t (some (h, g))) :
    jobViolations (h.result job g stamp) = [] ↔ h.success = true := by
  rw [jobViolations_result course]
  obtain ⟨kinds, lawful⟩ := course.kinds_lawful .nil
  have allows : ∀ kind o, (kind, some o) ∈ h → PhaseKind.allows kind o = true :=
    course.outcomes (JobPipeline.standard_allows c) (by simp)
  have kinds : h.map Prod.fst =
      [.install, .openSession] ++ .testRun :: [.closeSession, .exportCoverage] := kinds
  obtain ⟨before, rest, rfl, hb, hr⟩ := List.map_eq_append_iff.mp kinds
  obtain ⟨⟨_, o⟩, after, rfl, rfl, ha⟩ := List.map_eq_cons_iff.mp hr
  have before_codes : History.codes before = [] :=
    History.codes_eq_nil (fun kind o mem => allows kind o (by simp [mem])) (by simp [hb])
  have after_codes : History.codes after = [] :=
    History.codes_eq_nil (fun kind o mem => allows kind o (by simp [mem])) (by simp [ha])
  have codes : History.codes (before ++ (.testRun, o) :: after) = History.codes [(.testRun, o)] := by
    rw [History.codes_append, before_codes, ← List.singleton_append, History.codes_append, after_codes]
    simp
  have run : o.isSome = (History.abort? before).isNone := lawful before after .testRun o rfl
  have abort : History.abort? (before ++ (.testRun, o) :: after) =
      (History.abort? before).or ((History.abort? [(.testRun, o)]).or (History.abort? after)) := by
    rw [History.abort?_append, ← List.singleton_append, History.abort?_append]
  rw [History.success, codes, abort]
  rcases o with _ | _ | reason | code
  · -- the tests were passed over because the job was aborted
    cases ab : History.abort? before with
    | none => simp [ab] at run
    | some why => simp
  · exact absurd (allows .testRun .passed (by simp)) (by decide)
  · rw [History.abort?_failed]
    cases History.abort? before <;> simp [PhaseKind.isSetup]
  · simp [History.codes]

theorem Gate.jobViolations_crashed (stamps : Nat → Stamp) (job : Job) (why : Option String) :
    jobViolations (MatrixRunner.crashedResult stamps job why) =
      [.crashed MatrixRunner.crashReason] := rfl

/-! ## The whole matrix -/

theorem Violation.message_names (job : String) (v : Violation) :
    ∃ rest, v.message job = "Job '" ++ job ++ "'" ++ rest := by
  cases v with
  | testsFailed code =>
    exact ⟨" tests returned non-zero result code: " ++ toString code, by
      simp only [message, String.append_assoc]; rfl⟩
  | aborted phase reason =>
    exact ⟨" aborted during " ++ phase ++ ": " ++ reason, by
      simp only [message, String.append_assoc]; rfl⟩
  | closings count =>
    exact ⟨" closed its reporting session " ++ toString count ++ " time(s), expected exactly once", by
      simp only [message, String.append_assoc]; rfl⟩
  | neverFinished => exact ⟨" never finished", by simp only [message, String.append_assoc]; rfl⟩
  | crashed failure =>
    exact ⟨" crashed: " ++ failure, by simp only [message, String.append_assoc]; rfl⟩

theorem Gate.violations_evaluate (jobs : List JobResult) :
    (evaluate jobs).violations = jobs.flatMap fun j => (evaluate [j]).violations := by
  simp [evaluate]

theorem Gate.violations_evaluate_one (j : JobResult) :
    (evaluate [j]).violations = (jobViolations j).map (·.message j.job.id.text) := by
  simp [evaluate]

theorem Gate.passed_evaluate_iff (jobs : List JobResult) :
    (evaluate jobs).passed = true ↔ ∀ j ∈ jobs, jobViolations j = [] := by
  simp [evaluate]

namespace MatrixResult

theorem success_iff (r : MatrixResult) : r.success = true ↔ ∀ j ∈ r.jobs, j.success = true := by
  simp [success]

/-- The exit status is a status of a process, and is zero exactly for success. -/
theorem exitCode_spec (r : MatrixResult) :
    (r.success = true ↔ r.exitCode = 0) ∧ 0 ≤ r.exitCode ∧ r.exitCode ≤ 255 := by
  rw [success_iff, exitCode]
  cases found : r.jobs.find? (!·.success) with
  | none => simpa using found
  | some j =>
    have failed := List.find?_some found
    have mem := List.mem_of_find?_eq_some found
    have unsuccessful : ¬∀ k ∈ r.jobs, k.success = true := by
      intro all
      simp [all j mem] at failed
    dsimp only
    split <;> simp only [unsuccessful, false_iff] <;> omega

theorem exitCode_of_first {r : MatrixResult} {before after : List JobResult} {j : JobResult}
    (jobs : r.jobs = before ++ j :: after) (good : ∀ k ∈ before, k.success = true)
    (bad : j.success = false) :
    r.exitCode = if 1 ≤ j.exitCode ∧ j.exitCode ≤ 255 then j.exitCode else 1 := by
  have found : r.jobs.find? (!·.success) = some j := by
    rw [jobs, List.find?_append, List.find?_cons_of_pos (by simp [bad])]
    have none : before.find? (!·.success) = none := by simpa using good
    rw [none]
    rfl
  rw [exitCode, found]

end MatrixResult

namespace MatrixRunner

theorem IsResultOf.jobViolations_iff {c : Config} {id : ReporterId} {reporter : Reporter} {cwd : Path}
    {stamps : Nat → Stamp} {trace : Trace} {job : Job} {r : JobResult}
    (h : (standard c id reporter).IsResultOf cwd stamps trace job r) :
    Gate.jobViolations r = [] ↔ r.success = true := by
  cases h with
  | own course => exact Gate.jobViolations_standard course
  | crash =>
    rw [Gate.jobViolations_crashed]
    simp [crashedResult, JobResult.crashed]

end MatrixRunner
end CoverageMatrix
