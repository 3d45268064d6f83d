import CoverageMatrix.Proofs.Matrix.Verdict

/-!
# What the log of a job tells

A job keeps its history twice, as records of its phases and as a log of events. The log tells each
record in one event or in two (`PhaseRecord.ToldBy`), and the records can be read off it again
(`Event.record?`).
-/
namespace CoverageMatrix

namespace Event

/-- An event is of a kind and has entries, maybe among others. -/
def Shows (e : Event) (kind : String) (entries : List (String × Data)) : Prop :=
  e.kind = kind ∧ ∀ x ∈ entries, e.payload.entry x.1 = x.2

/-- The whole number under a key, if there is one. -/
def number? (e : Event) (key : String) : Option Int :=
  match e.payload.entry key with
  | .int n => some n
  | _ => none

/-- The record of the phase whose end an event tells. -/
def record? (e : Event) : Option PhaseRecord :=
  (e.phase?.bind fun name => PhaseKind.byName.lookup name).bind fun kind =>
    let ms := ((e.number? "duration_ms").getD 0).toNat
    if e.kind = phaseSkipped then some (.skipped kind)
    else if e.kind = phasePassed then some { kind := kind, status := .passed, durationMs := ms }
    else if e.kind = testsCompleted then
      (e.number? "result_code").map fun code =>
        { kind := kind, status := .completed, resultCode := some code, durationMs := ms }
    else if e.kind = phaseFailed then
      (e.payload.entry "error").text?.map fun reason =>
        { kind := kind, status := .failed, detail := some reason, durationMs := ms }
    else none

end Event

/-- The events that tell a record: one for a phase that was skipped, and for any other phase its
start and its end. -/
inductive PhaseRecord.ToldBy : PhaseRecord → List Event → Prop
  | skipped {kind : PhaseKind} {e : Event}
    (told : e.Shows Event.phaseSkipped [("phase", .text kind.name)]) :
    ToldBy { kind := kind, status := .skipped } [e]
  | passed {kind : PhaseKind} {ms : Nat} {s e : Event}
    (started : s.Shows Event.phaseStarted [("phase", .text kind.name)])
    (told : e.Shows Event.phasePassed [("phase", .text kind.name), ("duration_ms", .int ms)]) :
    ToldBy { kind := kind, status := .passed, durationMs := ms } [s, e]
  | completed {kind : PhaseKind} {code : Int} {ms : Nat} {s e : Event}
    (started : s.Shows Event.phaseStarted [("phase", .text kind.name)])
    (told : e.Shows Event.testsCompleted
      [("phase", .text kind.name), ("result_code", .int code), ("duration_ms", .int ms)]) :
    ToldBy { kind := kind, status := .completed, resultCode := some code, durationMs := ms } [s, e]
  | failed {kind : PhaseKind} {reason : String} {ms : Nat} {s e : Event}
    (started : s.Shows Event.phaseStarted [("phase", .text kind.name)])
    (told : e.Shows Event.phaseFailed [("phase", .text kind.name), ("error", .text reason),
      ("policy", .text kind.policy.name), ("duration_ms", .int ms)]) :
    ToldBy { kind := kind, status := .failed, detail := some reason, durationMs := ms } [s, e]

/-! ## Reading a log -/

theorem PhaseKind.lookup_byName (kind : PhaseKind) : byName.lookup kind.name = some kind := by
  cases kind <;> rfl

namespace Event.Shows

variable {e : Event} {title key : String} {entries : List (String × Data)}

theorem phase? {kind : PhaseKind} (told : e.Shows title (("phase", .text kind.name) :: entries)) :
    e.phase? = some kind.name := by
  rw [Event.phase?, told.2 ("phase", .text kind.name) List.mem_cons_self]
  rfl

theorem number? {n : Int} (told : e.Shows title entries) (mem : (key, .int n) ∈ entries) :
    e.number? key = some n := by
  rw [Event.number?, told.2 (key, .int n) mem]

theorem text? {s : String} (told : e.Shows title entries) (mem : (key, .text s) ∈ entries) :
    (e.payload.entry key).text? = some s := by
  rw [told.2 (key, .text s) mem]
  rfl

/-- An event that starts a phase tells no record yet. -/
theorem record?_started (told : e.Shows phaseStarted entries) : e.record? = none := by
  have apart : phaseStarted ≠ phaseSkipped ∧ phaseStarted ≠ phasePassed ∧
      phaseStarted ≠ testsCompleted ∧ phaseStarted ≠ phaseFailed := by
    decide
  simp [record?, told.1, apart]

end Event.Shows

theorem PhaseRecord.ToldBy.rebuilt {r : PhaseRecord} {es : List Event} (told : r.ToldBy es) :
    es.filterMap Event.record? = [r] := by
  cases told with
  | skipped told =>
    simp [Event.record?, told.phase?, PhaseKind.lookup_byName, told.1, PhaseRecord.skipped]
  | @passed kind ms s e started told =>
    have ms : e.number? "duration_ms" = some (ms : Int) := told.number? (by simp)
    rw [List.filterMap_cons_none started.record?_started]
    simp [Event.record?, told.phase?, PhaseKind.lookup_byName, told.1, ms, Event.phasePassed,
      Event.phaseSkipped]
  | @completed kind code ms s e started told =>
    have code : e.number? "result_code" = some code := told.number? (by simp)
    have ms : e.number? "duration_ms" = some (ms : Int) := told.number? (by simp)
    rw [List.filterMap_cons_none started.record?_started]
    simp [Event.record?, told.phase?, PhaseKind.lookup_byName, told.1, code, ms,
      Event.testsCompleted, Event.phasePassed, Event.phaseSkipped]
  | @failed kind reason ms s e started told =>
    have reason : (e.payload.entry "error").text? = some reason := told.text? (by simp)
    have ms : e.number? "duration_ms" = some (ms : Int) := told.number? (by simp)
    rw [List.filterMap_cons_none started.record?_started]
    simp [Event.record?, told.phase?, PhaseKind.lookup_byName, told.1, reason, ms,
      Event.phaseFailed, Event.testsCompleted, Event.phasePassed, Event.phaseSkipped]

/-! ## What is reported -/

/-- The event that reports a happening at a place and a time. -/
def Happening.at (h : Happening) (place : Nat) (time : String) : Event :=
  ⟨place, h.kind, h.payload, time⟩

theorem Happening.shows {h : Happening} {place : Nat} {time : String}
    {entries shown : List (String × Data)} (made : h.payload = .record entries)
    (listed : ∀ x ∈ shown, entries.reverse.lookup x.1 = some x.2) :
    (h.at place time).Shows h.kind shown := by
  refine ⟨rfl, fun x mem => ?_⟩
  have payload : (h.at place time).payload = .record entries := made
  rw [payload, Data.entry_record, listed x mem]
  rfl

namespace Event

/-- The events of happenings that begin at a place. -/
def numberedFrom (place : Nat) (time : String) (happenings : List Happening) : List Event :=
  happenings.mapIdx fun i h => h.at (place + i) time

variable (place : Nat) (time : String) (hs gs : List Happening)

theorem numbered_eq : numbered time hs = numberedFrom 1 time hs := by
  simp [numbered, numberedFrom, Happening.at, Nat.add_comm]

theorem numberedFrom_singleton (h : Happening) :
    numberedFrom place time [h] = [h.at place time] := rfl

theorem numberedFrom_append : numberedFrom place time (hs ++ gs) =
    numberedFrom place time hs ++ numberedFrom (place + hs.length) time gs := by
  simp [numberedFrom, List.mapIdx_append, Nat.add_left_comm, Nat.add_comm]

theorem numberedFrom_cons (h : Happening) : numberedFrom place time (h :: hs) =
    h.at place time :: numberedFrom (place + 1) time hs :=
  numberedFrom_append place time [h] hs

theorem seq_numberedFrom :
    (numberedFrom place time hs).map (·.seq) = List.range' place hs.length := by
  apply List.ext_getElem
  · simp [numberedFrom]
  · simp [numberedFrom, Happening.at]

end Event

namespace History

@[simp] theorem kind_record (e : PhaseKind × Option PhaseOutcome) : (record e).kind = e.1 := by
  obtain ⟨kind, _ | _ | reason | code⟩ := e <;> rfl

theorem status_record_eq_skipped_iff (e : PhaseKind × Option PhaseOutcome) :
    (record e).status = .skipped ↔ e.2 = none := by
  obtain ⟨kind, _ | _ | reason | code⟩ := e <;> simp [record]

theorem record_toldBy (e : PhaseKind × Option PhaseOutcome) (place : Nat) (time : String) :
    (record e).ToldBy (Event.numberedFrom place time (happenings e)) := by
  obtain ⟨kind, _ | _ | reason | code⟩ := e
  · exact .skipped (Happening.shows rfl (by simp))
  · exact .passed (Happening.shows rfl (by simp)) (Happening.shows rfl (by simp [List.lookup_cons]))
  · exact .failed (Happening.shows rfl (by simp)) (Happening.shows rfl (by simp [List.lookup_cons]))
  · exact .completed (Happening.shows rfl (by simp))
      (Happening.shows rfl (by simp [List.lookup_cons]))

/-- The events of a history are those of its records one after the other. -/
theorem records_toldBy (h : History) (place : Nat) (time : String) :
    ∃ told, Event.numberedFrom place time (h.flatMap happenings) = told.flatten ∧
      List.Forall₂ PhaseRecord.ToldBy (h.map record) told := by
  induction h generalizing place with
  | nil => exact ⟨[], rfl, .nil⟩
  | cons e rest ih =>
    obtain ⟨told, events, records⟩ := ih (place + (happenings e).length)
    refine ⟨Event.numberedFrom place time (happenings e) :: told, ?_, ?_⟩
    · rw [List.flatMap_cons, Event.numberedFrom_append, events, List.flatten_cons]
    · exact .cons (record_toldBy e place time) records

end History

theorem PhaseRecord.ToldBy.rebuilt_all {rs : List PhaseRecord} {told : List (List Event)}
    (tells : List.Forall₂ ToldBy rs told) : told.flatten.filterMap Event.record? = rs := by
  induction tells with
  | nil => rfl
  | cons one _ ih =>
    rw [List.flatten_cons, List.filterMap_append, one.rebuilt, ih, List.singleton_append]

/-! ## The whole log -/

theorem Event.record?_eq_none {e : Event} (unnamed : e.phase? = none) : e.record? = none := by
  rw [record?, unnamed]
  rfl

theorem Happening.record?_jobStarted (job : JobId) (version runId : String) (place : Nat)
    (time : String) : ((jobStarted job version runId).at place time).record? = none :=
  Event.record?_eq_none (by
    simp [Event.phase?, Happening.at, payload, Data.entry_record, List.lookup_cons, Data.text?])

theorem Happening.record?_jobFinished (success : Bool) (code : Int) (ms place : Nat)
    (time : String) : ((jobFinished success code ms).at place time).record? = none :=
  Event.record?_eq_none (by
    simp [Event.phase?, Happening.at, payload, Data.entry_record, List.lookup_cons, Data.text?])

namespace History

variable (h : History) (job : Job) (f : Findings) (stamp : Stamp)

theorem events_result : (h.result job f stamp).events =
    (Happening.jobStarted job.id job.version stamp.runId).at 1 stamp.time ::
      Event.numberedFrom 2 stamp.time (h.flatMap happenings) ++
        [(Happening.jobFinished h.success h.code 0).at (2 + (h.flatMap happenings).length)
          stamp.time] := by
  have log : h.log job stamp = [.jobStarted job.id job.version stamp.runId] ++ h.flatMap happenings :=
    rfl
  rw [result, Event.numbered_eq, log, Event.numberedFrom_append, Event.numberedFrom_append,
    Event.numberedFrom_singleton, Event.numberedFrom_singleton, List.length_append,
    List.length_singleton, ← Nat.add_assoc]
  rfl

theorem countP_beginsClosing_result :
    (h.result job f stamp).events.countP Gate.beginsClosing =
      h.countP fun e => e.1 = .closeSession && e.2.isSome := by
  have forget : (h.result job f stamp).events.countP Gate.beginsClosing =
      ((h.result job f stamp).events.map fun e =>
        (⟨0, e.kind, e.payload, ""⟩ : Event)).countP Gate.beginsClosing := by
    rw [List.countP_map]
    rfl
  rw [forget, result, Event.map_numbered, Gate.countP_beginsClosing, log, List.cons_append,
    List.countP_cons, List.countP_append, countP_startsClosing]
  rfl

theorem sessionCloseCount_result : (h.result job f stamp).sessionCloseCount =
    h.countP fun e => e.1 = .closeSession && e.2.isSome := by
  rw [JobResult.sessionCloseCount, ← List.countP_eq_length_filter, result, List.countP_map]
  refine List.countP_congr fun e _ => ?_
  rw [Function.comp_apply, decide_eq_true_iff, kind_record, Bool.and_eq_true, decide_eq_true_iff,
    Ne, status_record_eq_skipped_iff, Option.isSome_iff_ne_none]

end History

/-- The log of a job that came to a result tells its records one after the other, between the start
of the job and its end, and with numbers that count from one. The records can be read off the log,
and the log and the records agree that the session was closed once. -/
theorem JobPipeline.log_tells_records (p : JobPipeline) (c : Config) (job : Job) (id : ReporterId)
    (reporter : Reporter) (cwd : Path) (stamp : Stamp) (t : Transcript) (r : JobResult)
    (run : (p.run (.start c job id reporter cwd) stamp).Follows t (some r)) :
    (∃ first told last, r.events = first :: told.flatten ++ [last] ∧
      first.Shows Event.jobStarted
        [("job", .text job.id.text), ("version", .text job.version), ("run_id", .text r.runId)] ∧
      List.Forall₂ PhaseRecord.ToldBy r.phases told ∧
      last.Shows Event.jobFinished [("success", .bool r.success), ("exit_code", .int r.exitCode)]) ∧
    r.events.map (·.seq) = List.range' 1 r.events.length ∧
    r.phases.map (·.kind) = p.kinds ∧
    r.events.filterMap Event.record? = r.phases ∧
    r.events.countP Gate.beginsClosing = r.sessionCloseCount ∧ r.sessionCloseCount = 1 := by
  obtain ⟨e, course, he⟩ := (p.follows_run_iff stamp rfl rfl).mp run
  obtain ⟨⟨h, f⟩, rfl, result⟩ := Option.map_eq_some_iff.mp he.symm
  obtain rfl : h.result job f stamp = r := result
  have kinds := (course.kinds_lawful .nil).1
  obtain ⟨told, events, tells⟩ := h.records_toldBy 2 stamp.time
  have job_started := Happening.record?_jobStarted job.id job.version stamp.runId 1 stamp.time
  have job_finished := Happening.record?_jobFinished h.success h.code 0
    (2 + (h.flatMap History.happenings).length) stamp.time
  have shown := h.events_result job f stamp
  rw [events] at shown
  have closers : (h.result job f stamp).sessionCloseCount = 1 := by
    rw [History.sessionCloseCount_result, course.countP_closers]
  refine ⟨⟨_, told, _, shown, ?_, tells, ?_⟩, ?_, ?_, ?_, ?_, closers⟩
  · exact Happening.shows rfl (by simp [List.lookup_cons, History.result])
  · exact Happening.shows rfl (by simp [List.lookup_cons, History.result])
  · rw [History.result, Event.numbered_eq, Event.seq_numberedFrom]
    simp [Event.numberedFrom]
  · have same : (h.result job f stamp).phases.map (·.kind) = h.map Prod.fst := by
      simp [History.result, History.kind_record]
    exact same.trans kinds
  · rw [shown, List.filterMap_append, List.filterMap_cons_none job_started,
      PhaseRecord.ToldBy.rebuilt_all tells, List.filterMap_cons_none job_finished]
    exact List.append_nil _
  · rw [History.countP_beginsClosing_result, History.sessionCloseCount_result]

/-- Surroundings in which every command ends well, and the reporting service opens sessions but does
not close them. -/
def refusingHost : Host where
  cwd := []
  command _ w := ⟨some (.ok ⟨0, "", "", 0⟩), w.files⟩
  service call _ :=
    match call.closingCode? with
    | none => .ok ()
    | some _ => .error (.reporter "close" 1)
  download _ _ := .ok .empty

/-- A job whose session could not be closed, with the log that tells so. -/
theorem JobPipeline.log_tells_records_refused :
    let run := (standard {}).run
      (.start {} (({} : Config).job 1 "2.7") ⟨"token"⟩ .recording ⟨"/work"⟩) ⟨"run", "now"⟩
    ∃ t r, run.Follows t (some r) ∧
      r.phases.map (·.status) = [.passed, .passed, .completed, .failed, .passed] ∧
      r.events.filterMap Event.record? = r.phases ∧
      r.events.countP Gate.beginsClosing = r.sessionCloseCount := by
  intro run
  obtain ⟨t, follows, -⟩ := Program.exists_follows_run refusingHost run ⟨⟨[]⟩, []⟩
  have ends : (run.run refusingHost ⟨⟨[]⟩, []⟩).1.map (·.phases.map (·.status)) =
      some [.passed, .passed, .completed, .failed, .passed] := by
    decide +kernel
  obtain ⟨r, result, statuses⟩ := Option.map_eq_some_iff.mp ends
  rw [result] at follows
  obtain ⟨-, -, -, read, closings, -⟩ := log_tells_records _ _ _ _ _ _ _ _ _ follows
  exact ⟨t, r, follows, statuses, read, closings⟩

end CoverageMatrix
