import CoverageMatrix.Proofs.Job.Log
import Mathlib.Data.List.Forall2

/-!
# Failures that change nothing

Closing the session and exporting the coverage follow upon the tests. Two runs of a job in which
these phases end differently, and all others alike, run the same phases and come to the same outcome
(`JobPipeline.followUps_change_nothing`). The records, the states and the events of the two results
agree but for the phases in question, and the gate finds the same violations.
-/
namespace CoverageMatrix

/-! ## Outcomes, histories and events that agree -/

/-- The code with which a phase completed, if it did. -/
def PhaseOutcome.code? : PhaseOutcome → Option Int
  | completed code => some code
  | _ => none

/-- The ends of two phases of a kind agree: both were passed over, they ended alike, or they are
follow-ups that passed or failed in each case. -/
inductive PhaseKind.Agree (kind : PhaseKind) : Option PhaseOutcome → Option PhaseOutcome → Prop
  | same (o : Option PhaseOutcome) : Agree kind o o
  | followUp {o o' : PhaseOutcome} (lenient : kind.isSetup = false) (plain : o.code? = none)
    (plain' : o'.code? = none) : Agree kind (some o) (some o')

namespace History

/-- The phases of two histories are of the same kinds and agree. -/
def Agree (h h' : History) : Prop :=
  List.Forall₂ (fun e e' => e.1 = e'.1 ∧ e.1.Agree e.2 e'.2) h h'

/-- The phases of two histories are of the same kinds, and those that were run in both agree. -/
def AgreeIfRun (h h' : History) : Prop :=
  List.Forall₂ (fun e e' => e.1 = e'.1 ∧ (e.2.isSome = e'.2.isSome → e.1.Agree e.2 e'.2)) h h'

end History

namespace Event

/-- The event tells that a follow-up passed or failed. -/
def EndsFollowUp (e : Event) (kind : PhaseKind) : Prop :=
  kind.isSetup = false ∧ e.phase? = some kind.name ∧ (e.kind = phasePassed ∨ e.kind = phaseFailed)

/-- Two events stand at one place and tell the same, apart from the name of the run, or each tells
that the same follow-up passed or failed. -/
def Agree (e e' : Event) : Prop :=
  e.seq = e'.seq ∧
    (e.kind = e'.kind ∧ (e.payload = e'.payload ∨ e.kind = jobStarted) ∨
      ∃ kind, e.EndsFollowUp kind ∧ e'.EndsFollowUp kind)

end Event

/-- Two records are the same, or of a follow-up that passed or failed in each case. -/
def PhaseRecord.Agree (r r' : PhaseRecord) : Prop :=
  r = r' ∨ r.kind = r'.kind ∧ r.kind.isSetup = false ∧ r.resultCode = none ∧ r'.resultCode = none ∧
    r.status ∈ [.passed, .failed] ∧ r'.status ∈ [.passed, .failed]

/-- What a follow-up reaches. -/
def JobState.isFollowUp : JobState → Bool
  | reportSessionClosed | coverageExported => true
  | _ => false

/-- Two results that are the same apart from the run's own name and time, from why follow-ups failed,
and from what these left behind. -/
structure JobResult.Agree (r r' : JobResult) : Prop where
  job : r.job = r'.job
  success : r.success = r'.success
  exitCode : r.exitCode = r'.exitCode
  abortedAt : r.abortedAt = r'.abortedAt
  failure : r.failure = r'.failure
  durationMs : r.durationMs = r'.durationMs
  resultCodes : r.phases.map (·.resultCode) = r'.phases.map (·.resultCode)
  skipped : r.phases.map (·.status = .skipped) = r'.phases.map (·.status = .skipped)
  phases : List.Forall₂ PhaseRecord.Agree r.phases r'.phases
  states : r.states.filter (!·.isFollowUp) = r'.states.filter (!·.isFollowUp)
  events : List.Forall₂ Event.Agree r.events r'.events

/-! ## Lists that agree -/

section

variable {α β : Type} {R : α → α → Prop} {l l' : List α}

theorem map_eq_of_forall₂ {f : α → β} (alike : ∀ a b, R a b → f a = f b)
    (h : List.Forall₂ R l l') : l.map f = l'.map f := by
  have mapped : List.Forall₂ Eq (l.map f) (l'.map f) := List.rel_map (fun {a b} => alike a b) h
  rwa [List.forall₂_eq_eq_eq] at mapped

theorem filterMap_eq_of_forall₂ {f : α → Option β} (alike : ∀ a b, R a b → f a = f b)
    (h : List.Forall₂ R l l') : l.filterMap f = l'.filterMap f := by
  have mapped := congrArg (List.filterMap id) (map_eq_of_forall₂ alike h)
  rwa [List.filterMap_map, List.filterMap_map] at mapped

end

/-! ## Histories -/

theorem PhaseOutcome.eq_of_code?_eq_none {o : PhaseOutcome} (h : o.code? = none) :
    o = .passed ∨ ∃ reason, o = .failed reason := by
  cases o with
  | passed => exact .inl rfl
  | failed reason => exact .inr ⟨reason, rfl⟩
  | completed code => cases h

namespace History

variable {h h' : History}

/-- What history entries give that agree is alike if it is alike for a follow-up that passed or
failed in each case. -/
theorem Agree.entry {P : PhaseKind × Option PhaseOutcome → PhaseKind × Option PhaseOutcome → Prop}
    (same : ∀ e, P e e)
    (followUp : ∀ kind (o o' : PhaseOutcome), kind.isSetup = false → o.code? = none →
      o'.code? = none → P (kind, some o) (kind, some o')) :
    ∀ e e', (e.1 = e'.1 ∧ e.1.Agree e.2 e'.2) → P e e' := by
  rintro ⟨kind, o⟩ ⟨_, o'⟩ ⟨rfl, _ | ⟨lenient, plain, plain'⟩⟩
  · exact same _
  · exact followUp kind _ _ lenient plain plain'

theorem Agree.failures_eq (agree : Agree h h') :
    h.failures PhaseKind.isSetup = h'.failures PhaseKind.isSetup := by
  refine filterMap_eq_of_forall₂ (Agree.entry (fun _ => rfl) ?_) agree
  intro kind o o' lenient plain plain'
  cases o <;> cases o' <;> simp_all [PhaseOutcome.code?]

theorem Agree.abort?_eq (agree : Agree h h') : h.abort? = h'.abort? := by
  rw [abort?, abort?, agree.failures_eq]

theorem Agree.codes_eq (agree : Agree h h') : h.codes = h'.codes := by
  refine filterMap_eq_of_forall₂ (Agree.entry (fun _ => rfl) ?_) agree
  intro kind o o' lenient plain plain'
  cases o <;> cases o' <;> simp_all [PhaseOutcome.code?]

theorem Agree.admits_eq (agree : Agree h h') (kind : PhaseKind) :
    h.admits kind = h'.admits kind := by
  cases kind <;> simp [admits, agree.abort?_eq, agree.codes_eq]

theorem AgreeIfRun.agree_after {before before' : History} (agree : AgreeIfRun h h')
    (agreed : Agree before before') (lawful : Lawful (before ++ h))
    (lawful' : Lawful (before' ++ h')) : Agree h h' := by
  induction agree generalizing before before' with
  | nil => exact .nil
  | @cons e e' rest rest' first _ ih =>
    obtain ⟨kind, o⟩ := e
    obtain ⟨_, o'⟩ := e'
    obtain ⟨rfl, same⟩ := first
    -- the phases before an entry decide whether it is run, and they agree
    have run : o.isSome = o'.isSome := by
      rw [lawful before rest kind o rfl, lawful' before' rest' kind o' rfl, agreed.admits_eq]
    have entry : Agree [(kind, o)] [(kind, o')] := .cons ⟨rfl, same run⟩ .nil
    rw [List.append_cons] at lawful lawful'
    exact .cons ⟨rfl, same run⟩ (ih (List.rel_append agreed entry) lawful lawful')

/-- Where the phases that were run in two jobs agree, the same phases were run: the follow-ups have
no say in what is run after them. -/
theorem AgreeIfRun.agree (agree : AgreeIfRun h h') (lawful : h.Lawful) (lawful' : h'.Lawful) :
    Agree h h' := by
  have nothing : Agree [] [] := .nil
  exact agree.agree_after nothing lawful lawful'

theorem Agree.records (agree : Agree h h') :
    List.Forall₂ PhaseRecord.Agree (h.map record) (h'.map record) := by
  refine List.rel_map (fun {e e'} => ?_) agree
  refine Agree.entry (P := fun e e' => (record e).Agree (record e')) (fun _ => .inl rfl) ?_ e e'
  intro kind o o' lenient plain plain'
  refine .inr ?_
  cases o <;> cases o' <;> simp_all [PhaseOutcome.code?, record]

theorem Agree.states_eq (agree : Agree h h') :
    h.states.filter (!·.isFollowUp) = h'.states.filter (!·.isFollowUp) := by
  rw [states, states, List.filter_filterMap, List.filter_filterMap]
  refine filterMap_eq_of_forall₂ (Agree.entry (fun _ => rfl) ?_) agree
  intro kind o o' lenient plain plain'
  cases kind <;> cases o <;> cases o' <;>
    simp_all [PhaseOutcome.code?, PhaseKind.isSetup, PhaseKind.reached, JobState.isFollowUp,
      Option.filter_some]

end History

/-! ## Records -/

theorem PhaseRecord.Agree.resultCode_eq {r r' : PhaseRecord} (agree : r.Agree r') :
    r.resultCode = r'.resultCode := by
  rcases agree with rfl | ⟨-, -, none, none', -⟩
  · rfl
  · rw [none, none']

theorem PhaseRecord.Agree.skipped_iff {r r' : PhaseRecord} (agree : r.Agree r') :
    r.status = .skipped ↔ r'.status = .skipped := by
  rcases agree with rfl | ⟨-, -, -, -, run, run'⟩
  · rfl
  · constructor
    · intro skipped
      rw [skipped] at run
      simp at run
    · intro skipped
      rw [skipped] at run'
      simp at run'

/-! ## Events -/

/-- Two happenings are the same, each starts the job, or each ends the same follow-up. -/
inductive Happening.Agree : Happening → Happening → Prop
  | same (h : Happening) : Agree h h
  | started (job : JobId) (version runId runId' : String) :
    Agree (.jobStarted job version runId) (.jobStarted job version runId')
  | followUp {kind : PhaseKind} {o o' : PhaseOutcome} (lenient : kind.isSetup = false)
    (plain : o.code? = none) (plain' : o'.code? = none) :
    Agree (JobProgress.happening kind o) (JobProgress.happening kind o')

theorem History.Agree.happenings {h h' : History} (agree : h.Agree h') :
    List.Forall₂ Happening.Agree (h.flatMap History.happenings) (h'.flatMap History.happenings) := by
  refine List.rel_flatMap agree fun {e e'} => ?_
  refine Agree.entry (P := fun e e' =>
    List.Forall₂ Happening.Agree (History.happenings e) (History.happenings e')) (fun e => ?_) ?_ e e'
  · exact List.forall₂_same.mpr fun x _ => .same x
  · intro kind o o' lenient plain plain'
    have made (o : PhaseOutcome) : History.happenings (kind, some o) =
        [.phaseStarted kind, JobProgress.happening kind o] := by cases o <;> rfl
    rw [made, made]
    exact .cons (.same _) (.cons (.followUp lenient plain plain') .nil)

theorem Event.endsFollowUp_at {kind : PhaseKind} {o : PhaseOutcome} (lenient : kind.isSetup = false)
    (plain : o.code? = none) (place : Nat) (time : String) :
    ((JobProgress.happening kind o).at place time).EndsFollowUp kind := by
  rcases PhaseOutcome.eq_of_code?_eq_none plain with rfl | ⟨reason, rfl⟩
  · have shown : ((Happening.phasePassed kind 0).at place time).Shows Event.phasePassed
        [("phase", .text kind.name)] := Happening.shows rfl (by simp [List.lookup_cons])
    exact ⟨lenient, shown.phase?, .inl rfl⟩
  · have shown : ((Happening.phaseFailed kind reason 0).at place time).Shows Event.phaseFailed
        [("phase", .text kind.name)] := Happening.shows rfl (by simp [List.lookup_cons])
    exact ⟨lenient, shown.phase?, .inr rfl⟩

theorem Happening.Agree.at {g g' : Happening} (agree : g.Agree g') (place : Nat)
    (time time' : String) : (g.at place time).Agree (g'.at place time') := by
  refine ⟨rfl, ?_⟩
  cases agree with
  | same => exact .inl ⟨rfl, .inl rfl⟩
  | started => exact .inl ⟨rfl, .inr rfl⟩
  | followUp lenient plain plain' =>
    exact .inr ⟨_, Event.endsFollowUp_at lenient plain place time,
      Event.endsFollowUp_at lenient plain' place time'⟩

theorem Event.numberedFrom_agree {hs hs' : List Happening}
    (agree : List.Forall₂ Happening.Agree hs hs') (place : Nat) (time time' : String) :
    List.Forall₂ Event.Agree (numberedFrom place time hs) (numberedFrom place time' hs') := by
  induction agree generalizing place with
  | nil => exact .nil
  | cons first _ ih =>
    rw [numberedFrom_cons, numberedFrom_cons]
    exact .cons (first.at place time time') (ih (place + 1))

/-! ## Results -/

theorem History.Agree.result {h h' : History} (agree : h.Agree h') (job : Job) (f f' : Findings)
    (stamp stamp' : Stamp) : (h.result job f stamp).Agree (h'.result job f' stamp') := by
  have success : h.success = h'.success := by
    rw [success, success, agree.abort?_eq, agree.codes_eq]
  have code : h.code = h'.code := by
    rw [History.code, History.code, agree.abort?_eq, agree.codes_eq]
  have reported : List.Forall₂ Happening.Agree
      (h.log job stamp ++ [.jobFinished h.success h.code 0])
      (h'.log job stamp' ++ [.jobFinished h'.success h'.code 0]) := by
    rw [success, code]
    exact List.rel_append (.cons (.started ..) agree.happenings) (.cons (.same _) .nil)
  exact {
    job := rfl
    success := success
    exitCode := code
    abortedAt := congrArg (Option.map Prod.fst) agree.abort?_eq
    failure := congrArg (Option.map Prod.snd) agree.abort?_eq
    durationMs := rfl
    resultCodes := map_eq_of_forall₂ (fun _ _ same => same.resultCode_eq) agree.records
    skipped := map_eq_of_forall₂ (fun _ _ same => propext same.skipped_iff) agree.records
    phases := agree.records
    states := by simp [History.result, List.filter_cons, agree.states_eq]
    events := by
      simp only [History.result, Event.numbered_eq]
      exact Event.numberedFrom_agree reported 1 stamp.time stamp'.time }

/-! ## The gate -/

namespace Gate

/-- The gate finds neither a violation in an event, nor the start of a closing phase, nor the end of
the job. -/
def Overlooks (e : Event) : Prop :=
  violation? e = none ∧ beginsClosing e = false ∧ e.kind ≠ Event.jobFinished

theorem overlooks_jobStarted {e : Event} (started : e.kind = Event.jobStarted) : Overlooks e := by
  simp [Overlooks, violation?, beginsClosing, started, Event.jobStarted, Event.testsCompleted,
    Event.phaseFailed, Event.phaseStarted, Event.jobFinished]

theorem overlooks_followUp {e : Event} {kind : PhaseKind} (ends : e.EndsFollowUp kind) :
    Overlooks e := by
  obtain ⟨lenient, named, passed | failed⟩ := ends
  · simp [Overlooks, violation?, beginsClosing, passed, Event.phasePassed, Event.testsCompleted,
      Event.phaseFailed, Event.phaseStarted, Event.jobFinished]
  · have pardoned : isLenient (phaseOf e) = true := by
      simp [phaseOf, named, isLenient_name, lenient]
    simp [Overlooks, violation?, beginsClosing, failed, pardoned, Event.testsCompleted,
      Event.phaseFailed, Event.phaseStarted, Event.jobFinished]

/-- What the gate takes note of in an event. -/
def view (e : Event) : Option Violation × Bool × Bool :=
  (violation? e, beginsClosing e, e.kind = Event.jobFinished)

theorem view_of_overlooks {e : Event} (overlooked : Overlooks e) :
    view e = (none, false, false) := by
  obtain ⟨none, other, going⟩ := overlooked
  rw [view, none, other, decide_eq_false going]

theorem view_eq {e e' : Event} (agree : e.Agree e') : view e = view e' := by
  obtain ⟨-, ⟨kind, payload | started⟩ | ⟨phase, ends, ends'⟩⟩ := agree
  · obtain ⟨_, _, _, _⟩ := e
    obtain ⟨_, _, _, _⟩ := e'
    cases kind
    cases payload
    rfl
  · rw [view_of_overlooks (overlooks_jobStarted started),
      view_of_overlooks (overlooks_jobStarted (kind ▸ started))]
  · rw [view_of_overlooks (overlooks_followUp ends), view_of_overlooks (overlooks_followUp ends')]

theorem violations_eq {log log' : List Event} (agree : List.Forall₂ Event.Agree log log') :
    violations log = violations log' := by
  have views : log.map view = log'.map view := map_eq_of_forall₂ (fun _ _ => view_eq) agree
  have through (log : List Event) : violations log =
      (log.map view).filterMap Prod.fst ++
        if (log.map view).isEmpty then []
        else
          let closings := (log.map view).countP fun v => v.2.1
          (if closings = 1 then [] else [.closings closings])
            ++ if (log.map view).any fun v => v.2.2 then [] else [.neverFinished] := by
    simp only [List.filterMap_map, List.countP_map, List.any_map, List.isEmpty_map]
    rfl
  rw [through, through, views]

theorem jobViolations_eq {r r' : JobResult} (agree : r.Agree r') :
    jobViolations r = jobViolations r' := by
  have events := agree.events
  rw [jobViolations, jobViolations, violations_eq events, agree.failure]
  generalize r.events = log at events ⊢
  generalize r'.events = log' at events ⊢
  cases events <;> rfl

/-- The verdict on a matrix but for the warnings. -/
theorem evaluate_eq {r r' : JobResult} (agree : r.Agree r') (before after : List JobResult) :
    (evaluate (before ++ r :: after)).passed = (evaluate (before ++ r' :: after)).passed ∧
      (evaluate (before ++ r :: after)).violations = (evaluate (before ++ r' :: after)).violations ∧
      (evaluate (before ++ r :: after)).message = (evaluate (before ++ r' :: after)).message := by
  simp [evaluate, jobViolations_eq agree, agree.job]

end Gate

/-! ## What phases leave behind -/

/-- What became of a phase: it was passed over, or it ended in an outcome and left findings. -/
abbrev Leaving := PhaseKind × Option (PhaseOutcome × Findings)

/-- The history that leavings make. -/
def Leaving.history (ls : List Leaving) : History :=
  ls.map fun l => (l.1, l.2.map Prod.fst)

/-- The findings that a job has in the end. -/
def Leaving.findings (f : Findings) (ls : List Leaving) : Findings :=
  ls.foldl (fun f l => (l.2.map Prod.snd).getD f) f

/-- Two phases that were run left the same coverage data. -/
def Leaving.SameCoverage (l l' : Leaving) : Prop :=
  ∀ x ∈ l.2, ∀ y ∈ l'.2, x.2.coverage.dataset = y.2.coverage.dataset

/-- Phases of which none breaks down, with what each of them leaves behind. -/
inductive Leaves (ctx : JobContext) :
    History → Findings → List Phase → Transcript → List Leaving → Prop
  | nil {h : History} {f : Findings} : Leaves ctx h f [] [] []
  | skipped {h : History} {f : Findings} {phase : Phase} {phases : List Phase} {t : Transcript}
    {ls : List Leaving} (hk : h.admits phase.kind = false)
    (rest : Leaves ctx (h ++ [(phase.kind, none)]) f phases t ls) :
    Leaves ctx h f (phase :: phases) t ((phase.kind, none) :: ls)
  | ran {h : History} {f g : Findings} {phase : Phase} {phases : List Phase} {o : PhaseOutcome}
    {t u : Transcript} {ls : List Leaving} (hk : h.admits phase.kind = true)
    (run : (phase.run (h.contextOf ctx f)).Follows t (some (o, g)))
    (rest : Leaves ctx (h ++ [(phase.kind, some o)]) g phases u ls) :
    Leaves ctx h f (phase :: phases) (t ++ u) ((phase.kind, some (o, g)) :: ls)

/-- The phases of a job that begins afresh, with what each of them leaves behind. -/
def JobPipeline.Leaves (p : JobPipeline) (ctx : JobContext) (t : Transcript) (ls : List Leaving) :
    Prop :=
  CoverageMatrix.Leaves ctx [] ctx.findings p.phases t ls

section

variable {ctx : JobContext} {h h' : History} {f f' : Findings} {phases : List Phase} {t : Transcript}
  {ls ls' : List Leaving}

theorem Leaves.course (left : Leaves ctx h f phases t ls) :
    Course ctx h f phases t (some (h ++ Leaving.history ls, Leaving.findings f ls)) := by
  induction left with
  | nil =>
    rw [Leaving.history, List.map_nil, List.append_nil]
    exact .finished
  | skipped hk _ ih =>
    rw [List.append_assoc] at ih
    exact .skipped hk ih
  | ran hk run _ ih =>
    rw [List.append_assoc] at ih
    exact .ran hk run ih

theorem Course.exists_leaves (course : Course ctx h f phases t (some (h', f'))) :
    ∃ ls, Leaves ctx h f phases t ls ∧ h' = h ++ Leaving.history ls := by
  generalize he : some (h', f') = e at course
  induction course with
  | finished =>
    cases he
    exact ⟨[], .nil, (List.append_nil _).symm⟩
  | skipped hk _ ih =>
    obtain ⟨ls, left, rfl⟩ := ih he
    exact ⟨_ :: ls, .skipped hk left, List.append_assoc ..⟩
  | ran hk run _ ih =>
    obtain ⟨ls, left, rfl⟩ := ih he
    exact ⟨_ :: ls, .ran hk run left, List.append_assoc ..⟩
  | brokeDown => cases he

/-- Where the phases that were run left the same coverage data, the jobs have the same in the end. -/
theorem Leaving.dataset_eq (agree : (history ls).Agree (history ls'))
    (same : List.Forall₂ SameCoverage ls ls') (start : f.coverage.dataset = f'.coverage.dataset) :
    (findings f ls).coverage.dataset = (findings f' ls').coverage.dataset := by
  induction same generalizing f f' with
  | nil => exact start
  | @cons l l' ls ls' one _ ih =>
    cases agree with
    | cons first rest =>
      refine ih rest ?_
      obtain ⟨kind, _ | ⟨o, g⟩⟩ := l <;> obtain ⟨kind', _ | ⟨o', g'⟩⟩ := l'
      · exact start
      · cases first.2
      · cases first.2
      · exact one _ rfl _ rfl

end

/-- Two runs in which the phases end alike, apart from follow-ups that pass or fail in each, come to
results that agree, over the same phases. If the phases leave the same coverage data, so do the runs,
and whatever the other jobs of a matrix come to, the gate has the same verdict and the same
violations for it. -/
theorem JobPipeline.followUps_change_nothing (p p' : JobPipeline) (c c' : Config) (job : Job)
    (id id' : ReporterId) (reporter reporter' : Reporter) (cwd cwd' : Path) (stamp stamp' : Stamp)
    (t t' : Transcript) (ls ls' : List Leaving)
    (left : p.Leaves (.start c job id reporter cwd) t ls)
    (left' : p'.Leaves (.start c' job id' reporter' cwd') t' ls')
    (agree : (Leaving.history ls).AgreeIfRun (Leaving.history ls')) :
    ∃ r r', (p.run (.start c job id reporter cwd) stamp).Follows t (some r) ∧
      (p'.run (.start c' job id' reporter' cwd') stamp').Follows t' (some r') ∧
      r.Agree r' ∧
      (List.Forall₂ Leaving.SameCoverage ls ls' → r.coverage = r'.coverage) ∧
      ∀ before after : List JobResult,
        (Gate.evaluate (before ++ r :: after)).passed =
            (Gate.evaluate (before ++ r' :: after)).passed ∧
          (Gate.evaluate (before ++ r :: after)).violations =
            (Gate.evaluate (before ++ r' :: after)).violations ∧
          (Gate.evaluate (before ++ r :: after)).message =
            (Gate.evaluate (before ++ r' :: after)).message := by
  let f := (JobContext.start c job id reporter cwd).findings
  let f' := (JobContext.start c' job id' reporter' cwd').findings
  have course := left.course
  have course' := left'.course
  rw [List.nil_append] at course course'
  have agreed := agree.agree (course.kinds_lawful .nil).2 (course'.kinds_lawful .nil).2
  have results := agreed.result job (Leaving.findings f ls) (Leaving.findings f' ls') stamp stamp'
  refine ⟨_, _, (p.follows_run_iff stamp rfl rfl).mpr ⟨_, course, rfl⟩,
    (p'.follows_run_iff stamp' rfl rfl).mpr ⟨_, course', rfl⟩, results, fun same => ?_,
    Gate.evaluate_eq results⟩
  exact Leaving.dataset_eq agreed same rfl

theorem History.record_injective : Function.Injective record := by
  rintro ⟨kind, _ | _ | reason | code⟩ ⟨kind', _ | _ | reason' | code'⟩ same <;>
    simp_all [record]

/-- Every run that comes to a result has leavings, and these make the history of its records. -/
theorem JobPipeline.exists_leaves {p : JobPipeline} {ctx : JobContext} {stamp : Stamp} {t : Transcript}
    {r : JobResult} {h : History} (fresh : ctx.resultCode = none ∧ ctx.aborted = false)
    (run : (p.run ctx stamp).Follows t (some r)) (records : r.phases = h.map History.record) :
    ∃ ls, p.Leaves ctx t ls ∧ Leaving.history ls = h := by
  obtain ⟨e, course, he⟩ := (p.follows_run_iff stamp fresh.1 fresh.2).mp run
  obtain ⟨⟨h', f⟩, rfl, result⟩ := Option.map_eq_some_iff.mp he.symm
  obtain rfl : h'.result ctx.job f stamp = r := result
  obtain rfl : h' = h := List.map_injective_iff.mpr History.record_injective records
  obtain ⟨ls, left, whole⟩ := course.exists_leaves
  exact ⟨ls, left, whole.symm⟩

/-- A reporter that closes every session, and a service that closes none: all that differs is what
is known of the closing. -/
theorem JobPipeline.followUps_change_nothing_refused :
    let p := standard {}
    let ctx := fun reporter : Reporter =>
      JobContext.start {} (({} : Config).job 1 "2.7") ⟨"token"⟩ reporter ⟨"/work"⟩
    ∃ t t' ls ls', p.Leaves (ctx .noop) t ls ∧ p.Leaves (ctx .recording) t' ls' ∧
      (Leaving.history ls).AgreeIfRun (Leaving.history ls') ∧ ls.map (·.1) = p.kinds ∧
      ∃ r r' : JobResult, r.Agree r' ∧ r.phases ≠ r'.phases ∧
        (p.run (ctx .noop) ⟨"run", "now"⟩).Follows t (some r) ∧
        (p.run (ctx .recording) ⟨"run", "now"⟩).Follows t' (some r') := by
  intro p ctx
  let run (reporter : Reporter) := p.run (ctx reporter) ⟨"run", "now"⟩
  let ended (closing : PhaseOutcome) : History :=
    [(.install, some .passed), (.openSession, some .passed), (.testRun, some (.completed 0)),
     (.closeSession, some closing), (.exportCoverage, some .passed)]
  let refused : PhaseOutcome :=
    .failed "after-build failed: Reporting helper 'close' exited with code 1"
  have ends : ((run .noop).run refusingHost ⟨⟨[]⟩, []⟩).1.map (·.phases) =
      some ((ended .passed).map History.record) := by
    decide +kernel
  have ends' : ((run .recording).run refusingHost ⟨⟨[]⟩, []⟩).1.map (·.phases) =
      some ((ended refused).map History.record) := by
    decide +kernel
  obtain ⟨r, result, records⟩ := Option.map_eq_some_iff.mp ends
  obtain ⟨r', result', records'⟩ := Option.map_eq_some_iff.mp ends'
  obtain ⟨t, follows, -⟩ := Program.exists_follows_run refusingHost (run .noop) ⟨⟨[]⟩, []⟩
  obtain ⟨t', follows', -⟩ := Program.exists_follows_run refusingHost (run .recording) ⟨⟨[]⟩, []⟩
  rw [result] at follows
  rw [result'] at follows'
  obtain ⟨ls, left, history⟩ := exists_leaves ⟨rfl, rfl⟩ follows records
  obtain ⟨ls', left', history'⟩ := exists_leaves ⟨rfl, rfl⟩ follows' records'
  have agree : (Leaving.history ls).AgreeIfRun (Leaving.history ls') := by
    rw [history, history']
    exact .cons ⟨rfl, fun _ => .same _⟩ (.cons ⟨rfl, fun _ => .same _⟩ (.cons ⟨rfl, fun _ => .same _⟩
      (.cons ⟨rfl, fun _ => .followUp rfl rfl rfl⟩ (.cons ⟨rfl, fun _ => .same _⟩ .nil))))
  obtain ⟨_, _, again, again', same, -⟩ := followUps_change_nothing p p _ _ _ _ _ _ _ _ _
    ⟨"run", "now"⟩ ⟨"run", "now"⟩ _ _ _ _ left left' agree
  cases again.unique follows
  cases again'.unique follows'
  refine ⟨t, t', ls, ls', left, left', agree, ?_, r, r', same, ?_, follows, follows'⟩
  · have kinds : ls.map (·.1) = (Leaving.history ls).map Prod.fst := by
      simp [Leaving.history]
    rw [kinds, history]
    rfl
  · rw [records, records']
    decide

end CoverageMatrix
