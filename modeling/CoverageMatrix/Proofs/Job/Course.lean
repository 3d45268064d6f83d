import CoverageMatrix.Program.Transcript
import CoverageMatrix.Proofs.Job.History
import CoverageMatrix.Proofs.Program.Transcript

/-!
# The course of a job

How the phases of a job go one after the other, told from the history of the job alone: which of
them are run, and what they see. A job takes exactly these courses (`follows_runPhases_iff`), and
its result is that of the history at the end.
-/
namespace CoverageMatrix

/-- The phases of a job, after a history, go over a transcript to an end: the whole history, with
the findings that the phases left, or the breakdown of one of them. -/
inductive Course (ctx : JobContext) :
    History → Findings → List Phase → Transcript → Option (History × Findings) → Prop
  | finished {h : History} {f : Findings} : Course ctx h f [] [] (some (h, f))
  | skipped {h : History} {f : Findings} {phase : Phase} {phases : List Phase} {t : Transcript}
      {e : Option (History × Findings)} (hk : h.admits phase.kind = false)
      (rest : Course ctx (h ++ [(phase.kind, none)]) f phases t e) :
      Course ctx h f (phase :: phases) t e
  | ran {h : History} {f g : Findings} {phase : Phase} {phases : List Phase} {o : PhaseOutcome}
      {t u : Transcript} {e : Option (History × Findings)} (hk : h.admits phase.kind = true)
      (run : (phase.run (h.contextOf ctx f)).Follows t (some (o, g)))
      (rest : Course ctx (h ++ [(phase.kind, some o)]) g phases u e) :
      Course ctx h f (phase :: phases) (t ++ u) e
  | brokeDown {h : History} {f : Findings} {phase : Phase} {phases : List Phase} {t : Transcript}
      (hk : h.admits phase.kind = true)
      (run : (phase.run (h.contextOf ctx f)).Follows t none) :
      Course ctx h f (phase :: phases) t none

/-- No phase of a pipeline breaks down unless the command runner does, with a given reporter. -/
def JobPipeline.IsSteady (p : JobPipeline) (reporter : Reporter) : Prop :=
  ∀ phase ∈ p.phases, ∀ ctx : JobContext, ctx.reporter = reporter → (phase.run ctx).Steady

namespace Course

variable {ctx : JobContext} {h : History} {f : Findings} {phases : List Phase}

/-- A course that comes to its end adds each phase to the history, and those that were run are those
that had to be. -/
theorem kinds_lawful {t : Transcript} {h' : History} {f' : Findings}
    (course : Course ctx h f phases t (some (h', f'))) (lawful : h.Lawful) :
    h'.map Prod.fst = h.map Prod.fst ++ phases.map (·.kind) ∧ h'.Lawful := by
  generalize he : some (h', f') = e at course
  induction course with
  | finished =>
    cases he
    exact ⟨(List.append_nil _).symm, lawful⟩
  | skipped hk _ ih =>
    obtain ⟨kinds, lawful⟩ := ih (lawful.concat hk.symm) he
    exact ⟨by simp [kinds], lawful⟩
  | ran hk _ _ ih =>
    obtain ⟨kinds, lawful⟩ := ih (lawful.concat hk.symm) he
    exact ⟨by simp [kinds], lawful⟩
  | brokeDown => cases he

theorem outcomes {P : PhaseKind → PhaseOutcome → Prop} {t : Transcript} {h' : History}
    {f' : Findings} (course : Course ctx h f phases t (some (h', f')))
    (ends : ∀ phase ∈ phases, ∀ c : JobContext,
      (phase.run c).Obeys (fun _ => True) True fun r => P phase.kind r.1)
    (start : ∀ kind o, (kind, some o) ∈ h → P kind o) : ∀ kind o, (kind, some o) ∈ h' → P kind o := by
  generalize he : some (h', f') = e at course
  induction course with
  | finished =>
    cases he
    exact start
  | skipped _ _ ih =>
    refine ih (fun phase mem => ends phase (List.mem_cons_of_mem _ mem)) (fun kind o mem => ?_) he
    exact start kind o (by simpa using mem)
  | ran _ run _ ih =>
    refine ih (fun phase mem => ends phase (List.mem_cons_of_mem _ mem)) (fun kind o mem => ?_) he
    rcases List.mem_append.mp mem with mem | mem
    · exact start kind o mem
    · cases List.mem_singleton.mp mem
      exact run.ends (ends _ List.mem_cons_self _)
  | brokeDown => cases he

theorem isSome_iff {t : Transcript} {e : Option (History × Findings)}
    (course : Course ctx h f phases t e)
    (steady : ∀ phase ∈ phases, ∀ c : JobContext, c.reporter = ctx.reporter → (phase.run c).Steady) :
    e.isSome ↔ t.isBroken = false := by
  induction course with
  | finished => simp
  | skipped _ _ ih => exact ih fun phase mem => steady phase (List.mem_cons_of_mem _ mem)
  | ran _ run _ ih =>
    have first := (run.isSome_iff (steady _ List.mem_cons_self _ rfl)).mp rfl
    rw [ih fun phase mem => steady phase (List.mem_cons_of_mem _ mem), Transcript.isBroken_append,
      first, Bool.false_or]
  | brokeDown _ run => exact run.isSome_iff (steady _ List.mem_cons_self _ rfl)

/-- The course of phases with others behind them is a course of the first with one of the others
behind it, if the first do not break down. -/
theorem split {others : List Phase} {t : Transcript} {e : Option (History × Findings)}
    (course : Course ctx h f (phases ++ others) t e) :
    (∃ t₁ t₂ h₁ f₁, t = t₁ ++ t₂ ∧ Course ctx h f phases t₁ (some (h₁, f₁)) ∧
      Course ctx h₁ f₁ others t₂ e) ∨ (e = none ∧ Course ctx h f phases t none) := by
  induction phases generalizing h f t with
  | nil => exact .inl ⟨[], t, h, f, rfl, .finished, course⟩
  | cons phase phases ih =>
    cases course with
    | skipped hk rest =>
      rcases ih rest with ⟨t₁, t₂, h₁, f₁, rfl, first, last⟩ | ⟨rfl, broken⟩
      · exact .inl ⟨t₁, t₂, h₁, f₁, rfl, .skipped hk first, last⟩
      · exact .inr ⟨rfl, .skipped hk broken⟩
    | ran hk run rest =>
      rcases ih rest with ⟨t₁, t₂, h₁, f₁, rfl, first, last⟩ | ⟨rfl, broken⟩
      · exact .inl ⟨_, t₂, h₁, f₁, (List.append_assoc ..).symm, .ran hk run first, last⟩
      · exact .inr ⟨rfl, .ran hk run broken⟩
    | brokeDown hk run => exact .inr ⟨rfl, .brokeDown hk run⟩

/-- If phases take two courses over beginnings of one transcript, these are one course. -/
theorem cut {t₁ t₂ u₁ u₂ : Transcript} {e₁ e₂ : Option (History × Findings)}
    (h₁ : Course ctx h f phases t₁ e₁) (h₂ : Course ctx h f phases t₂ e₂)
    (eq : t₁ ++ u₁ = t₂ ++ u₂) : t₁ = t₂ ∧ e₁ = e₂ := by
  induction h₁ generalizing t₂ with
  | finished =>
    cases h₂
    exact ⟨rfl, rfl⟩
  | skipped hk _ ih =>
    cases h₂ with
    | skipped _ rest => exact ih rest eq
    | ran hk' => rw [hk] at hk'; cases hk'
    | brokeDown hk' => rw [hk] at hk'; cases hk'
  | ran hk run _ ih =>
    cases h₂ with
    | skipped hk' => rw [hk] at hk'; cases hk'
    | ran _ run' rest =>
      rw [List.append_assoc, List.append_assoc] at eq
      obtain ⟨rfl, same⟩ := run.cut run' eq
      cases same
      obtain ⟨rfl, rfl⟩ := ih rest (List.append_cancel_left eq)
      exact ⟨rfl, rfl⟩
    | brokeDown _ run' =>
      rw [List.append_assoc] at eq
      cases (run.cut run' eq).2
  | brokeDown hk run =>
    cases h₂ with
    | skipped hk' => rw [hk] at hk'; cases hk'
    | ran _ run' rest =>
      rw [List.append_assoc] at eq
      cases (run.cut run' eq).2
    | brokeDown _ run' => exact ⟨(run.cut run' eq).1, rfl⟩

theorem unique {t : Transcript} {e₁ e₂ : Option (History × Findings)}
    (h₁ : Course ctx h f phases t e₁) (h₂ : Course ctx h f phases t e₂) : e₁ = e₂ := by
  have same : t ++ [] = t ++ [] := rfl
  exact (h₁.cut h₂ same).2

end Course

namespace JobProgress

variable {ctx : JobContext} {stamp : Stamp} {h : History} {f g : Findings}

/-! ## The progress keeps up with the history -/

theorem start_eq (hc : ctx.resultCode = none) (ha : ctx.aborted = false) :
    start ctx stamp = History.progress [] ctx stamp ctx.findings := by
  obtain ⟨_, _, _, _, _, _, _, _⟩ := ctx
  cases hc
  cases ha
  rfl

theorem admits_progress (kind : PhaseKind) :
    (h.progress ctx stamp f).admits kind = h.admits kind := by
  cases kind <;>
    simp [admits, History.progress, History.contextOf, History.admits, PhaseKind.policy]

theorem skip_progress (kind : PhaseKind) :
    (h.progress ctx stamp f).skip kind stamp =
      History.progress (h ++ [(kind, none)]) ctx stamp f := by
  simp only [skip, report, History.progress, History.contextOf, EventLog.report_numbered,
    History.log_append, History.states_append, History.codes_append, History.abort?_append,
    History.lastFailure?_append, List.map_append]
  simp [History.happenings, History.states, History.codes, History.abort?, History.failures,
    History.lastFailure?, History.record, PhaseRecord.skipped]

def left (p : JobProgress) (kind : PhaseKind) (stamp : Stamp) (g : Findings) : JobProgress :=
  let p := p.report (.phaseStarted kind) stamp
  { p with context := { p.context with findings := g } }

theorem finish_passed (kind : PhaseKind) :
    ((h.progress ctx stamp f).left kind stamp g).finish kind .passed stamp =
      History.progress (h ++ [(kind, some .passed)]) ctx stamp g := by
  simp only [left, finish, happening, report, History.progress, History.contextOf,
    EventLog.report_numbered, History.log_append, History.states_append, History.codes_append,
    History.abort?_append, History.lastFailure?_append, List.map_append]
  simp [History.happenings, History.states, History.codes, History.abort?, History.failures,
    History.lastFailure?, History.record, PhaseRecord.ofOutcome]

theorem finish_completed (kind : PhaseKind) (code : Int) :
    ((h.progress ctx stamp f).left kind stamp g).finish kind (.completed code) stamp =
      History.progress (h ++ [(kind, some (.completed code))]) ctx stamp g := by
  -- only the first code is kept, with the variable that tells it
  have context : (h.contextOf ctx g).withResultCode code =
      History.contextOf (h ++ [(kind, some (.completed code))]) ctx g := by
    simp only [History.contextOf, JobContext.withResultCode, History.codes_append,
      List.head?_append, History.abort?_append]
    cases h.codes.head? <;> simp [History.codes, History.abort?, History.failures]
  simp only [left, finish, happening, report, History.progress, EventLog.report_numbered,
    History.log_append, History.states_append, History.abort?_append, History.lastFailure?_append,
    List.map_append, ← context]
  simp [History.happenings, History.states, History.abort?, History.failures,
    History.lastFailure?, History.record, PhaseRecord.ofOutcome, History.contextOf]

theorem finish_failed (kind : PhaseKind) (reason : String) (hk : h.admits kind = true) :
    ((h.progress ctx stamp f).left kind stamp g).finish kind (.failed reason) stamp =
      History.progress (h ++ [(kind, some (.failed reason))]) ctx stamp g := by
  -- a setup phase is only run while nothing has failed, so its failure is the first one
  have first : kind.isSetup = true → h.abort? = none := by
    intro setup
    cases kind <;> simp_all [PhaseKind.isSetup, History.admits]
  simp only [left, finish, happening, report, History.progress, History.contextOf,
    EventLog.report_numbered, History.log_append, History.states_append, History.codes_append,
    History.abort?_append, History.lastFailure?_append, History.abort?_failed,
    History.lastFailure?_failed, List.map_append]
  cases kind with
  | install | openSession | testRun =>
    simp [first rfl, fail, PhaseKind.policy, PhaseKind.isSetup, History.happenings,
      History.states, History.codes, History.record, PhaseRecord.ofOutcome,
      EventLog.report_numbered]
  | closeSession | exportCoverage =>
    simp [fail, PhaseKind.policy, PhaseKind.isSetup, History.happenings, History.states,
      History.codes, History.record, PhaseRecord.ofOutcome, EventLog.report_numbered]

theorem finish_progress (kind : PhaseKind) (o : PhaseOutcome) (hk : h.admits kind = true) :
    ((h.progress ctx stamp f).left kind stamp g).finish kind o stamp =
      History.progress (h ++ [(kind, some o)]) ctx stamp g := by
  cases o with
  | passed => exact finish_passed kind
  | completed code => exact finish_completed kind code
  | failed reason => exact finish_failed kind reason hk

theorem result_progress :
    (h.progress ctx stamp f).result stamp = h.result ctx.job f stamp := by
  have codes : (h.contextOf ctx f).resultCode = h.codes.head? := rfl
  simp only [result, History.progress, History.result, History.code, History.success, codes,
    EventLog.report_numbered, Option.isSome_map, Option.isNone_map]
  cases h.abort? <;> cases h.codes.head? <;> simp [setupFailureCode, History.contextOf]

end JobProgress

namespace JobPipeline

variable {ctx : JobContext} {stamp : Stamp} {h : History} {f : Findings}

/-! ## The phases in order -/

theorem advance_of_admits {phase : Phase} (hk : h.admits phase.kind = true) :
    (h.progress ctx stamp f).advance stamp phase =
      (phase.run (h.contextOf ctx f)).bind fun r =>
        .done (History.progress (h ++ [(phase.kind, some r.1)]) ctx stamp r.2) := by
  rw [JobProgress.advance, if_pos ((JobProgress.admits_progress _).trans hk)]
  refine congrArg (Program.bind _) (funext fun r => congrArg Program.done ?_)
  exact JobProgress.finish_progress phase.kind r.1 hk

theorem advance_of_not_admits {phase : Phase} (hk : h.admits phase.kind = false) :
    (h.progress ctx stamp f).advance stamp phase =
      .done (History.progress (h ++ [(phase.kind, none)]) ctx stamp f) := by
  rw [JobProgress.advance, if_neg (by rw [JobProgress.admits_progress, hk]; decide)]
  exact congrArg Program.done (JobProgress.skip_progress phase.kind)

theorem runPhases_of_admits {phase : Phase} {phases : List Phase}
    (hk : h.admits phase.kind = true) :
    runPhases stamp (h.progress ctx stamp f) (phase :: phases) =
      (phase.run (h.contextOf ctx f)).bind fun r =>
        runPhases stamp (History.progress (h ++ [(phase.kind, some r.1)]) ctx stamp r.2) phases := by
  rw [runPhases, Program.bind_eq, advance_of_admits hk, Program.bind_assoc]
  rfl

theorem runPhases_of_not_admits {phase : Phase} {phases : List Phase}
    (hk : h.admits phase.kind = false) :
    runPhases stamp (h.progress ctx stamp f) (phase :: phases) =
      runPhases stamp (History.progress (h ++ [(phase.kind, none)]) ctx stamp f) phases := by
  rw [runPhases, Program.bind_eq, advance_of_not_admits hk]
  rfl

theorem follows_runPhases_iff (stamp : Stamp) {phases : List Phase} {t : Transcript}
    {o : Option JobProgress} :
    (runPhases stamp (h.progress ctx stamp f) phases).Follows t o ↔
      ∃ e, Course ctx h f phases t e ∧ o = e.map fun q => q.1.progress ctx stamp q.2 := by
  induction phases generalizing h f t with
  | nil =>
    constructor
    · intro run
      obtain ⟨rfl, rfl⟩ := Program.follows_done_iff.mp run
      exact ⟨some (h, f), .finished, rfl⟩
    · rintro ⟨e, course, rfl⟩
      cases course
      exact .done _
  | cons phase phases ih =>
    cases hk : h.admits phase.kind with
    | false =>
      rw [runPhases_of_not_admits hk, ih]
      constructor
      · rintro ⟨e, rest, rfl⟩
        exact ⟨e, .skipped hk rest, rfl⟩
      · rintro ⟨e, course, rfl⟩
        cases course with
        | skipped _ rest => exact ⟨e, rest, rfl⟩
        | ran hk' => rw [hk] at hk'; cases hk'
        | brokeDown hk' => rw [hk] at hk'; cases hk'
    | true =>
      rw [runPhases_of_admits hk, Program.follows_bind_iff]
      constructor
      · rintro (⟨t₁, t₂, ⟨outcome, g⟩, rfl, run, rest⟩ | ⟨rfl, run⟩)
        · obtain ⟨e, course, rfl⟩ := ih.mp rest
          exact ⟨e, .ran hk run course, rfl⟩
        · exact ⟨none, .brokeDown hk run, rfl⟩
      · rintro ⟨e, course, rfl⟩
        cases course with
        | skipped hk' => rw [hk] at hk'; cases hk'
        | ran _ run rest => exact .inl ⟨_, _, _, rfl, run, ih.mpr ⟨e, rest, rfl⟩⟩
        | brokeDown _ run => exact .inr ⟨rfl, run⟩

/-- A job that begins afresh takes exactly the courses that its phases can take, and what it comes
to is the result of the history. -/
theorem follows_run_iff (p : JobPipeline) (stamp : Stamp) (hc : ctx.resultCode = none)
    (ha : ctx.aborted = false) {t : Transcript} {o : Option JobResult} :
    (p.run ctx stamp).Follows t o ↔
      ∃ e, Course ctx [] ctx.findings p.phases t e ∧
        o = e.map fun q => q.1.result ctx.job q.2 stamp := by
  rw [run, Program.bind_eq, JobProgress.start_eq hc ha, Program.follows_bind_iff]
  constructor
  · rintro (⟨t₁, t₂, progress, rfl, phases, done⟩ | ⟨rfl, phases⟩)
    · obtain ⟨e, course, he⟩ := (follows_runPhases_iff stamp).mp phases
      obtain ⟨rfl, rfl⟩ := Program.follows_done_iff.mp done
      cases e with
      | none => cases he
      | some q =>
        cases he
        rw [List.append_nil]
        exact ⟨some q, course, congrArg some JobProgress.result_progress⟩
    · obtain ⟨e, course, he⟩ := (follows_runPhases_iff stamp).mp phases
      cases e with
      | none => exact ⟨none, course, rfl⟩
      | some q => cases he
  · rintro ⟨e, course, rfl⟩
    have phases := (follows_runPhases_iff stamp).mpr ⟨e, course, rfl⟩
    cases e with
    | none => exact .inr ⟨rfl, phases⟩
    | some q =>
      refine .inl ⟨t, [], _, (List.append_nil t).symm, phases, ?_⟩
      exact Program.follows_done_iff.mpr ⟨rfl, congrArg some JobProgress.result_progress.symm⟩

end JobPipeline
end CoverageMatrix
