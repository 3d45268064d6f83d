import CoverageMatrix.Proofs.Phase.Commands

/-!
# What a job runs of its plan

The exchanges of a job fall into those of its phases (`Course.stages`). In the standard pipeline each
phase runs the lines that the plan has for it, in order and as far as it gets; the tests have to find
the session open and the earlier coverage data erased, and the export tests that returned zero
(`Course.exists_execution`).
-/
namespace CoverageMatrix

/-! ## Phase by phase -/

/-- How far a job has come: its history and findings, unless it has broken down. -/
abbrev Stage := Option (History × Findings)

/-- A phase takes a job from one stage to the next, over some exchanges. A job that has broken down
takes no phase. -/
inductive Phase.Takes (ctx : JobContext) (phase : Phase) : Stage → Transcript → Stage → Prop
  | gone : Takes ctx phase none [] none
  | skipped {h : History} {f : Findings} (hk : h.admits phase.kind = false) :
    Takes ctx phase (some (h, f)) [] (some (h ++ [(phase.kind, none)], f))
  | ran {h : History} {f g : Findings} {o : PhaseOutcome} {t : Transcript}
    (hk : h.admits phase.kind = true)
    (run : (phase.run (h.contextOf ctx f)).Follows t (some (o, g))) :
    Takes ctx phase (some (h, f)) t (some (h ++ [(phase.kind, some o)], g))
  | brokeDown {h : History} {f : Findings} {t : Transcript} (hk : h.admits phase.kind = true)
    (run : (phase.run (h.contextOf ctx f)).Follows t none) : Takes ctx phase (some (h, f)) t none

/-- Phases take a job from one stage to another, each over exchanges of its own. -/
inductive Stages (ctx : JobContext) : Stage → List Phase → List Transcript → Stage → Prop
  | nil {s : Stage} : Stages ctx s [] [] s
  | cons {s s' e : Stage} {phase : Phase} {phases : List Phase} {t : Transcript}
    {ts : List Transcript} (first : phase.Takes ctx s t s') (rest : Stages ctx s' phases ts e) :
    Stages ctx s (phase :: phases) (t :: ts) e

variable {ctx : JobContext} {phase : Phase} {phases : List Phase} {s s' : Stage} {t u : Transcript}
  {h h' : History} {f f' : Findings}

theorem Stages.gone (ctx : JobContext) (phases : List Phase) :
    Stages ctx none phases (phases.map fun _ => []) none := by
  induction phases with
  | nil => exact .nil
  | cons phase phases ih => exact .cons .gone ih

theorem Course.stages {e : Stage} (course : Course ctx h f phases t e) :
    ∃ ts, t = ts.flatten ∧ Stages ctx (some (h, f)) phases ts e := by
  induction course with
  | finished => exact ⟨[], rfl, .nil⟩
  | skipped hk _ ih =>
    obtain ⟨ts, rfl, rest⟩ := ih
    exact ⟨[] :: ts, rfl, .cons (.skipped hk) rest⟩
  | ran hk run _ ih =>
    obtain ⟨ts, rfl, rest⟩ := ih
    exact ⟨_ :: ts, rfl, .cons (.ran hk run) rest⟩
  | @brokeDown h f phase phases t hk run =>
    refine ⟨t :: phases.map fun _ => [], ?_, .cons (.brokeDown hk run) (.gone ctx phases)⟩
    simp

namespace Phase.Takes

theorem admitted (takes : phase.Takes ctx s t s') (made : t ≠ []) :
    ∃ h f o, s = some (h, f) ∧ h.admits phase.kind = true ∧
      (phase.run (h.contextOf ctx f)).Follows t o := by
  cases takes with
  | gone | skipped => exact absurd rfl made
  | ran hk run => exact ⟨_, _, _, rfl, hk, run⟩
  | brokeDown hk run => exact ⟨_, _, _, rfl, hk, run⟩

theorem lines_prefix {lines : List String} (takes : phase.Takes ctx s t s')
    (runs : ∀ (h : History) (f : Findings), phase.RunsLines (h.contextOf ctx f) lines) :
    t.lines <+: lines := by
  cases takes with
  | gone | skipped => exact List.nil_prefix
  | ran _ run => exact run.lines_prefix (runs _ _)
  | brokeDown _ run => exact run.lines_prefix (runs _ _)

theorem entry {lines : List String} (takes : phase.Takes ctx s t (some (h', f')))
    (runs : ∀ (h : History) (f : Findings), phase.RunsLines (h.contextOf ctx f) lines) :
    ∃ h f o, s = some (h, f) ∧ h' = h ++ [(phase.kind, o)] ∧
      ∀ outcome, o = some outcome → outcome.isCarriedOut = true → t.lines = lines := by
  cases takes with
  | skipped => exact ⟨_, _, none, rfl, rfl, fun _ eq => by cases eq⟩
  | @ran h f _ o _ _ run =>
    refine ⟨h, f, some o, rfl, rfl, fun outcome eq carried => ?_⟩
    cases eq
    exact run.lines_eq (runs _ _) carried

/-- Where the job is not aborted after a phase of the setup, the phase was carried out. -/
theorem carriedOut (takes : phase.Takes ctx s t (some (h', f')))
    (setup : phase.kind.isSetup = true) (ok : h'.abort? = none) :
    ∃ h f o, s = some (h, f) ∧ h.abort? = none ∧ h' = h ++ [(phase.kind, some o)] ∧
      o.isCarriedOut = true ∧ (phase.run (h.contextOf ctx f)).Follows t (some (o, f')) := by
  cases takes with
  | @skipped h _ hk =>
    rw [History.abort?_append, Option.or_eq_none_iff] at ok
    have admitted : h.admits phase.kind = true := by
      cases kind : phase.kind <;> simp_all [History.admits, PhaseKind.isSetup]
    rw [admitted] at hk
    cases hk
  | @ran h f _ o _ _ run =>
    rw [History.abort?_append, Option.or_eq_none_iff] at ok
    refine ⟨h, f, o, rfl, ok.1, rfl, ?_, run⟩
    cases o with
    | failed reason =>
      rw [History.abort?_failed, if_pos setup] at ok
      cases ok.2
    | passed | completed code => rfl

end Phase.Takes

/-- Where a history has a phase that was carried out, the phase has run all its lines. -/
def History.RunsThrough (h : History) (part : PhaseKind → Transcript)
    (lines : PhaseKind → List String) : Prop :=
  ∀ kind o, (kind, some o) ∈ h → o.isCarriedOut = true → (part kind).lines = lines kind

theorem Stages.runsThrough {part : PhaseKind → Transcript} {lines : PhaseKind → List String}
    {ts : List Transcript} (stages : Stages ctx s phases ts (some (h', f')))
    (runs : ∀ phase ∈ phases, ∀ (h : History) (f : Findings),
      phase.RunsLines (h.contextOf ctx f) (lines phase.kind))
    (parts : ∀ p ∈ phases.zip ts, part p.1.kind = p.2) :
    ∃ h f, s = some (h, f) ∧ (h.RunsThrough part lines → h'.RunsThrough part lines) := by
  generalize he : some (h', f') = e at stages
  induction stages with
  | nil => exact ⟨h', f', he.symm, id⟩
  | @cons _ _ _ phase phases t ts first _ ih =>
    obtain ⟨own, others⟩ := List.forall_mem_cons.mp parts
    obtain ⟨h₁, f₁, rfl, kept⟩ := ih (fun p mem => runs p (List.mem_cons_of_mem _ mem)) others he
    obtain ⟨h, f, o, rfl, rfl, all⟩ := first.entry (runs _ List.mem_cons_self)
    refine ⟨h, f, rfl, fun before => kept fun kind outcome mem carried => ?_⟩
    rcases List.mem_append.mp mem with mem | mem
    · exact before kind outcome mem carried
    · obtain ⟨rfl, rfl⟩ := Prod.mk.inj (List.mem_singleton.mp mem)
      rw [own]
      exact all outcome rfl carried

/-! ## Plans of the standard pipeline -/

/-- The command lines in the plan of a job: what it says apart from the erasure and the sessions. -/
structure CommandPlan where
  installs : List String
  test : String
  exports : String

/-- One thing for each phase of the standard pipeline. -/
def PhaseKind.select {α : Type} (install openSession testRun closeSession exportCoverage : α) :
    PhaseKind → α
  | .install => install
  | .openSession => openSession
  | .testRun => testRun
  | .closeSession => closeSession
  | .exportCoverage => exportCoverage

def CommandPlan.of (p : CommandPlan) : PhaseKind → List String :=
  PhaseKind.select p.installs [] [p.test] [] [p.exports]

/-- What the plan of a job in the standard pipeline shows. -/
def CommandPlan.steps (p : CommandPlan) (ctx : JobContext) : List (PhaseKind × List String) :=
  [(.install, p.installs),
   (.openSession, [ctx.reporter.name ++ " reporter: before-build"]),
   (.testRun, ["erase " ++ ctx.findings.coverage.dataFile.text, p.test]),
   (.closeSession, [ctx.reporter.name ++ " reporter: after-build --exit-code <test result>"]),
   (.exportCoverage, [p.exports])]

/-- The exchanges of a job that keep to its plan, cut into those of its phases. -/
structure JobContext.Execution (ctx : JobContext) (plan : CommandPlan) (t : Transcript) where
  part : PhaseKind → Transcript
  whole : t = PhaseKind.all.flatMap part
  /-- Each phase runs its lines in order, as far as it gets. -/
  planned : ∀ kind, (part kind).lines <+: plan.of kind
  /-- The session is not opened before everything is installed. -/
  installed : part .openSession ≠ [] → (part .install).lines = plan.installs
  /-- The phase of the tests does not begin before the session is open. -/
  opened : part .testRun ≠ [] → ctx.Opened (part .openSession)
  /-- That phase begins with the erasure of earlier coverage data, and runs nothing without it. -/
  erased : (part .testRun).lines ≠ [] →
    ∃ e u, part .testRun = e :: u ∧ e.Erases ctx.findings.coverage.dataFile
  /-- The export does not begin unless the command of the tests was run and returned zero. -/
  tested : part .exportCoverage ≠ [] →
    ∃ i output, ⟨.command i, some (.ok output)⟩ ∈ part .testRun ∧ i.line = plan.test ∧
      output.exitCode = 0

namespace JobContext.Execution

variable {plan : CommandPlan}

/-- A job that did not begin. -/
def unbegun (ctx : JobContext) (plan : CommandPlan) : ctx.Execution plan [] where
  part _ := []
  whole := rfl
  planned _ := List.nil_prefix
  installed made := absurd rfl made
  opened made := absurd rfl made
  erased ran := absurd rfl ran
  tested made := absurd rfl made

theorem lines_eq (x : ctx.Execution plan t) (all : ∀ kind, (x.part kind).lines = plan.of kind) :
    t.lines = plan.installs ++ [plan.test, plan.exports] := by
  rw [x.whole]
  simp [PhaseKind.all, all, CommandPlan.of, PhaseKind.select]

end JobContext.Execution

theorem PhaseKind.eq_passed {kind : PhaseKind} {o : PhaseOutcome} (allowed : kind.allows o = true)
    (carried : o.isCarriedOut = true) (other : kind ≠ .testRun) : o = .passed := by
  cases o with
  | passed => rfl
  | failed reason => cases carried
  | completed code =>
    cases kind with
    | testRun => exact absurd rfl other
    | install | openSession | closeSession | exportCoverage => cases allowed

theorem PhaseKind.eq_completed {o : PhaseOutcome} (allowed : PhaseKind.testRun.allows o = true)
    (carried : o.isCarriedOut = true) : ∃ code, o = .completed code := by
  cases o with
  | passed => cases allowed
  | failed reason => cases carried
  | completed code => exact ⟨code, rfl⟩

namespace Phase.Takes

variable {c : Config}

theorem install_passed (takes : (Phase.install c.dependencies c.installers).Takes ctx
      (some ([], ctx.findings)) t (some (h', f'))) (ok : h'.abort? = none) :
    h' = [(.install, some .passed)] ∧ f' = ctx.findings ∧
      t.lines = (Phase.install c.dependencies c.installers).describe ctx := by
  obtain ⟨h, f, o, eq, -, rfl, carried, run⟩ := takes.carriedOut rfl ok
  cases eq
  obtain rfl := PhaseKind.eq_passed (run.ends (install_sound _ _)) carried (by simp)
  have kept : f' = ctx.findings := run.ends
    (install_obeys (P := fun _ => True) (C := True) _ _ _ fun _ _ _ => trivial)
  have runs : (Phase.install c.dependencies c.installers).RunsLines (History.contextOf [] ctx
      ctx.findings) ((Phase.install c.dependencies c.installers).describe ctx) :=
    install_runsLines _ _
  exact ⟨rfl, kept, run.lines_eq runs carried⟩

theorem openSession_passed (takes : Phase.openSession.Takes ctx s t (some (h', f')))
    (ok : h'.abort? = none) :
    ∃ h, s = some (h, f') ∧ h.abort? = none ∧ h' = h ++ [(.openSession, some .passed)] ∧
      (h.contextOf ctx f').Opened t := by
  obtain ⟨h, f, o, rfl, before, rfl, carried, run⟩ := takes.carriedOut rfl ok
  have allowed := run.ends
    (openSession_obeys (P := fun _ => True) (C := True) trivial (Program.obeys_true _))
  obtain rfl := PhaseKind.eq_passed allowed carried (by simp)
  obtain rfl : f' = f := run.ends
    (openSession_findings (P := fun _ => True) (C := True) _ trivial (Program.obeys_true _))
  exact ⟨h, rfl, before, rfl, opened_of_openSession run carried⟩

theorem testRun_completed (takes : (Phase.testRun c.tests).Takes ctx s t (some (h', f')))
    (ok : h'.abort? = none) :
    ∃ h f code, s = some (h, f) ∧ h.abort? = none ∧
      h' = h ++ [(.testRun, some (.completed code))] ∧
      ((Phase.testRun c.tests).run (h.contextOf ctx f)).Follows t (some (.completed code, f')) := by
  obtain ⟨h, f, o, rfl, before, rfl, carried, run⟩ := takes.carriedOut rfl ok
  obtain ⟨code, rfl⟩ := PhaseKind.eq_completed (run.ends (testRun_sound _)) carried
  exact ⟨h, f, code, rfl, before, rfl, run⟩

/-- Closing the session neither aborts a job nor gives it a code. -/
theorem closeSession_keeps (takes : Phase.closeSession.Takes ctx s t (some (h', f'))) :
    ∃ h f, s = some (h, f) ∧ h'.abort? = h.abort? ∧ h'.codes = h.codes := by
  cases takes with
  | skipped hk => cases hk
  | @ran h f _ o _ _ run =>
    have allowed := run.ends
      (closeSession_obeys (P := fun _ => True) (C := True) trivial trivial (Program.obeys_true _))
    refine ⟨h, f, rfl, ?_, ?_⟩
    · rw [History.abort?_append]
      cases o <;> simp [History.abort?, History.failures, closeSession, PhaseKind.isSetup]
    · rw [History.codes_append]
      cases o with
      | passed | failed reason => simp [History.codes]
      | completed code => cases allowed

theorem set_up (first : (Phase.install c.dependencies c.installers).Takes ctx
      (some ([], ctx.findings)) t s) (second : Phase.openSession.Takes ctx s u (some (h', f')))
    (ok : h'.abort? = none) :
    h' = [(.install, some .passed), (.openSession, some .passed)] ∧ f' = ctx.findings ∧
      ctx.Opened u := by
  obtain ⟨h, rfl, before, rfl, opened⟩ := second.openSession_passed ok
  obtain ⟨rfl, rfl, -⟩ := first.install_passed before
  exact ⟨rfl, rfl, opened⟩

variable {s₁ s₂ s₃ s₄ e : Stage} {t₁ t₂ t₃ t₄ t₅ : Transcript}

theorem erases (first : (Phase.install c.dependencies c.installers).Takes ctx
      (some ([], ctx.findings)) t₁ s₁) (second : Phase.openSession.Takes ctx s₁ t₂ s₂)
    (third : (Phase.testRun c.tests).Takes ctx s₂ t₃ s₃) (ran : t₃.lines ≠ []) :
    ∃ e u, t₃ = e :: u ∧ e.Erases ctx.findings.coverage.dataFile := by
  have made : t₃ ≠ [] := fun none => ran (congrArg Transcript.lines none)
  obtain ⟨h, f, _, rfl, admitted, run⟩ := third.admitted made
  obtain ⟨-, rfl, -⟩ := set_up first second (Option.isNone_iff_eq_none.mp admitted)
  have erased := Phase.erases_of_lines run ran
  exact erased

theorem returned_zero (first : (Phase.install c.dependencies c.installers).Takes ctx
      (some ([], ctx.findings)) t₁ s₁) (second : Phase.openSession.Takes ctx s₁ t₂ s₂)
    (third : (Phase.testRun c.tests).Takes ctx s₂ t₃ s₃)
    (fourth : Phase.closeSession.Takes ctx s₃ t₄ s₄)
    (fifth : (Phase.exportCoverage c.exports).Takes ctx s₄ t₅ e) (made : t₅ ≠ []) :
    ∃ i output, ⟨.command i, some (.ok output)⟩ ∈ t₃ ∧
      i.line = String.intercalate " " (ctx.job.render c.tests.template) ∧ output.exitCode = 0 := by
  obtain ⟨h, f, _, rfl, admitted, -⟩ := fifth.admitted made
  obtain ⟨unaborted, zero⟩ := Bool.and_eq_true_iff.mp admitted
  obtain ⟨h₃, f₃, rfl, abort, codes⟩ := fourth.closeSession_keeps
  rw [abort, Option.isNone_iff_eq_none] at unaborted
  rw [codes] at zero
  obtain ⟨h₂, f₂, code, rfl, before, rfl, run⟩ := third.testRun_completed unaborted
  obtain ⟨rfl, -, -⟩ := set_up first second before
  -- the only code in the history is that of the tests
  obtain rfl : code = 0 := by simpa [History.codes] using zero
  have command := Phase.exists_command_of_testRun run
  exact command

end Phase.Takes

/-! ## One job -/

/-- A reporter that hands over no command. -/
structure Reporter.IsIdle (r : Reporter) : Prop where
  opened : ∀ id scope, (r.opened id scope).Obeys Request.IsIdle True fun _ => True
  closed : ∀ id scope code, (r.closed id scope code).Obeys Request.IsIdle True fun _ => True

/-- The command lines that the plan of a job in the standard pipeline has. -/
def Config.commandPlan (c : Config) (ctx : JobContext) : CommandPlan where
  installs := (Phase.install c.dependencies c.installers).describe ctx
  test := String.intercalate " " (ctx.job.render c.tests.template)
  exports := String.intercalate " " (ctx.job.render c.exports.command)

theorem JobPipeline.plan_standard (c : Config) (ctx : JobContext) :
    (standard c).plan ctx = (c.commandPlan ctx).steps ctx :=
  rfl

theorem JobPipeline.standard_runsLines (c : Config) (idle : ctx.reporter.IsIdle) :
    ∀ phase ∈ (standard c).phases, ∀ (h : History) (f : Findings),
      phase.RunsLines (h.contextOf ctx f) ((c.commandPlan ctx).of phase.kind) := by
  intro phase mem h f
  simp only [standard, List.mem_cons, List.not_mem_nil, or_false] at mem
  rcases mem with rfl | rfl | rfl | rfl | rfl
  · exact Phase.install_runsLines _ _
  · exact Phase.openSession_runsLines (idle.opened _ _)
  · exact Phase.testRun_runsLines _
  · exact Phase.closeSession_runsLines (idle.closed _ _ _)
  · exact Phase.exportCoverage_runsLines _

/-- A job of the standard pipeline keeps to its plan, and each phase that was carried out has run
all its lines. -/
theorem Course.exists_execution {c : Config} {e : Stage} (idle : ctx.reporter.IsIdle)
    (course : Course ctx [] ctx.findings (JobPipeline.standard c).phases t e) :
    ∃ x : ctx.Execution (c.commandPlan ctx) t, ∀ h f, e = some (h, f) →
      ∀ kind o, (kind, some o) ∈ h → o.isCarriedOut = true →
        (x.part kind).lines = (c.commandPlan ctx).of kind := by
  have runs := JobPipeline.standard_runsLines c idle
  simp only [JobPipeline.standard, List.forall_mem_cons] at runs
  obtain ⟨installs, opens, tests, closes, exports, -⟩ := runs
  obtain ⟨ts, rfl, stages⟩ := course.stages
  have all := stages
  cases stages with | @cons _ s₁ _ _ _ t₁ _ first stages =>
  cases stages with | @cons _ s₂ _ _ _ t₂ _ second stages =>
  cases stages with | @cons _ s₃ _ _ _ t₃ _ third stages =>
  cases stages with | @cons _ s₄ _ _ _ t₄ _ fourth stages =>
  cases stages with | @cons _ s₅ _ _ _ t₅ _ fifth stages =>
  cases stages with | nil =>
  refine ⟨⟨PhaseKind.select t₁ t₂ t₃ t₄ t₅, rfl, fun kind => ?_, fun made => ?_, fun made => ?_,
    fun ran => ?_, fun made => ?_⟩, fun h f ended => ?_⟩
  · cases kind with
    | install => exact first.lines_prefix installs
    | openSession => exact second.lines_prefix opens
    | testRun => exact third.lines_prefix tests
    | closeSession => exact fourth.lines_prefix closes
    | exportCoverage => exact fifth.lines_prefix exports
  · obtain ⟨h, f, _, rfl, admitted, -⟩ := second.admitted made
    exact (first.install_passed (Option.isNone_iff_eq_none.mp admitted)).2.2
  · obtain ⟨h, f, _, rfl, admitted, -⟩ := third.admitted made
    exact (Phase.Takes.set_up first second (Option.isNone_iff_eq_none.mp admitted)).2.2
  · exact Phase.Takes.erases first second third ran
  · exact Phase.Takes.returned_zero first second third fourth fifth made
  · subst ended
    have parts : ∀ p ∈ (JobPipeline.standard c).phases.zip [t₁, t₂, t₃, t₄, t₅],
        PhaseKind.select t₁ t₂ t₃ t₄ t₅ p.1.kind = p.2 := by
      simp only [JobPipeline.standard, List.zip_cons_cons, List.zip_nil_right, List.forall_mem_cons]
      exact ⟨rfl, rfl, rfl, rfl, rfl, fun _ mem => absurd mem List.not_mem_nil⟩
    obtain ⟨_, _, eq, kept⟩ := all.runsThrough (JobPipeline.standard_runsLines c idle) parts
    cases eq
    exact kept (by simp [History.RunsThrough])

end CoverageMatrix
