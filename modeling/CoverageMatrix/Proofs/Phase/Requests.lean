import CoverageMatrix.Proofs.Job.Course
import CoverageMatrix.Proofs.Program.Runs

/-!
# What the phases of the library ask

Each phase of the library makes requests of a few forms only, and of the findings of a job it
changes only what is its own: the tests the coverage, the export the report. A pipeline asks what
its phases ask (`JobPipeline.run_obeys`).
-/
namespace CoverageMatrix

/-- What the command of the tests is called. -/
def Invocation.IsTest (i : Invocation) : Prop :=
  i.label = "test suite"

/-- What the command of the export is called. -/
def Invocation.IsExport (i : Invocation) : Prop :=
  i.label = "coverage export"

/-- What the commands of an installation are called. -/
def Invocation.IsInstall (i : Invocation) : Prop :=
  i.label = "system package index refresh" ∨ ∃ rest, i.label = "install action " ++ rest

/-- A command that runs where the job does and under its variables. -/
structure JobContext.Owns (ctx : JobContext) (i : Invocation) : Prop where
  cwd : i.cwd = ctx.workdir
  env : i.env = ctx.env

variable {ctx : JobContext} {P : Request → Prop} {C : Prop}

/-- No command of an installation is called like one of another phase. -/
theorem Invocation.IsInstall.label_ne {i : Invocation} (install : i.IsInstall) :
    i.label ∉ ["test suite", "coverage export", "reporter before-build", "reporter after-build"] := by
  have apart : ∀ {s : String}, s.toList.head? ≠ i.label.toList.head? → i.label ≠ s :=
    fun ne eq => ne (eq ▸ rfl)
  have first : i.label.toList.head? = some 's' ∨ i.label.toList.head? = some 'i' := by
    rcases install with eq | ⟨rest, eq⟩ <;> rw [eq]
    · exact .inl (by decide)
    · exact .inr (by simp)
  simp only [List.mem_cons, List.not_mem_nil, or_false, not_or]
  refine ⟨apart ?_, apart ?_, apart ?_, apart ?_⟩ <;> rcases first with eq | eq <;> rw [eq] <;> decide

theorem Invocation.IsInstall.not_isTest {i : Invocation} (install : i.IsInstall) : ¬i.IsTest :=
  fun test => install.label_ne (by simp [show i.label = _ from test])

theorem Invocation.IsInstall.not_isExport {i : Invocation} (install : i.IsInstall) : ¬i.IsExport :=
  fun exports => install.label_ne (by simp [show i.label = _ from exports])

/-- A command is made of words the first of which names a program. -/
theorem JobContext.invocation_eq (ctx : JobContext) (label : String) (template : CommandTemplate) :
    ctx.invocation label template =
      match ctx.job.render template with
      | program :: args =>
        if program = "" then .error (.emptyCommand label)
        else .ok ⟨label, program, args, ctx.env, ctx.workdir, 0⟩
      | [] => .error (.emptyCommand label) := by
  rw [JobContext.invocation, Invocation.ofArgv.eq_def]
  cases ctx.job.render template with
  | nil => rfl
  | cons program args =>
    by_cases nameless : program = ""
    · subst nameless
      rfl
    · have named : program.isEmpty = false := by simpa using nameless
      simp only [named, nameless, if_false, Bool.false_eq_true, Except.map, Invocation.withEnv,
        EnvVars.empty_overlay]

theorem JobContext.eq_of_invocation {label : String} {template : List String} {i : Invocation}
    (h : ctx.invocation label template = .ok i) :
    ctx.job.render template = i.program :: i.args ∧
      i = ⟨label, i.program, i.args, ctx.env, ctx.workdir, 0⟩ := by
  rw [invocation_eq] at h
  split at h
  · next rendered =>
    split at h <;> cases h
    exact ⟨rendered, rfl⟩
  · cases h

theorem JobContext.label_of_invocation {label : String} {template : List String} {i : Invocation}
    (h : ctx.invocation label template = .ok i) : i.label = label :=
  congrArg Invocation.label (eq_of_invocation h).2

theorem JobContext.owns_of_invocation {label : String} {template : List String} {i : Invocation}
    (h : ctx.invocation label template = .ok i) : ctx.Owns i :=
  ⟨congrArg Invocation.cwd (eq_of_invocation h).2, congrArg Invocation.env (eq_of_invocation h).2⟩

theorem Program.Obeys.ends_mono {α : Type} {p : Program α} {Q Q' : α → Prop} (h : p.Obeys P C Q)
    (hQ : ∀ a, Q a → Q' a) : p.Obeys P C Q' :=
  h.mono (fun _ asked => asked) (fun crashed => crashed) hQ

/-! ## Installing -/

namespace Install

theorem runStep_obeys {label : String} (argv : CommandTemplate)
    (command : ∀ i : Invocation, ctx.Owns i → i.label = label → P (.command i)) :
    (runStep ctx label argv).Obeys P C fun _ => True := by
  unfold runStep
  split
  · trivial
  · next i made =>
    refine ⟨command i (JobContext.owns_of_invocation made) (JobContext.label_of_invocation made),
      fun reply => ?_⟩
    rcases reply with e | output
    · trivial
    · simp only [Program.bind]
      split <;> trivial

section
variable (c : Config.Installers)
  (command : ∀ i : Invocation, ctx.Owns i → i.IsInstall → P (.command i))
include command

theorem runRefresh_obeys (refreshed : Bool) (action : InstallAction) :
    (runRefresh ctx c refreshed action).Obeys P C fun _ => True := by
  unfold runRefresh
  split
  · split
    · exact runStep_obeys _ fun i own label => command i own (.inl label)
    · trivial
  · trivial

theorem runAction_obeys (position : Nat) (action : InstallAction) :
    (runAction ctx c position action).Obeys P C fun _ => True := by
  unfold runAction
  split
  · trivial
  · refine runStep_obeys _ fun i own label => command i own (.inr ?_)
    exact ⟨toString position ++ (" (" ++ (action.label ++ ")")),
      label.trans (by simp only [String.append_assoc])⟩

/-- The loop over the actions runs commands of the installation only, and completes with no code. -/
theorem runActions_obeys (refreshed : Bool) (position : Nat) (actions : List InstallAction) :
    (runActions ctx c refreshed position actions).Obeys P C fun o => ∀ code, o ≠ .completed code := by
  induction actions generalizing refreshed position with
  | nil => exact fun _ => nofun
  | cons action rest ih =>
    refine (runRefresh_obeys c command refreshed action).bind fun reply _ => ?_
    rcases reply with reason | ⟨⟨⟩⟩
    · exact fun _ => nofun
    refine (runAction_obeys c command position action).bind fun reply _ => ?_
    rcases reply with reason | ⟨⟨⟩⟩
    · exact fun _ => nofun
    · exact ih _ _

end
end Install

namespace Phase

variable (ctx)

theorem install_obeys (actions : List InstallAction) (c : Config.Installers)
    (command : ∀ i : Invocation, ctx.Owns i → i.IsInstall → P (.command i)) :
    ((Phase.install actions c).run ctx).Obeys P C fun r => r.2 = ctx.findings :=
  (Install.runActions_obeys c command false 1 actions).bind fun _ _ => rfl

/-! ## Sessions -/

theorem openSession_findings
    (call : P (.note (.session (.opening ctx.reporterId ctx.scope))))
    (opened : (ctx.reporter.opened ctx.reporterId ctx.scope).Obeys P C fun _ => True) :
    (Phase.openSession.run ctx).Obeys P C fun r => r.2 = ctx.findings := by
  refine ⟨call, fun _ => opened.bind fun reply _ => ?_⟩
  rcases reply with e | ⟨⟨⟩⟩ <;> rfl

theorem closeSession_findings (begins : P (.note (.closing ctx.job.id)))
    (call : P (.note (.session (.closing ctx.reporterId ctx.scope ctx.closingCode))))
    (closed : (ctx.reporter.closed ctx.reporterId ctx.scope ctx.closingCode).Obeys P C
      fun _ => True) :
    (Phase.closeSession.run ctx).Obeys P C fun r => r.2 = ctx.findings := by
  refine ⟨begins, fun _ => ⟨call, fun _ => closed.bind fun reply _ => ?_⟩⟩
  rcases reply with e | ⟨⟨⟩⟩ <;> rfl

theorem openSession_asks {host : Host}
    (call : P (.note (.session (.opening ctx.reporterId ctx.scope))))
    (opened : (ctx.reporter.opened ctx.reporterId ctx.scope).Asks host P) :
    (Phase.openSession.run ctx).Asks host P := by
  refine ⟨call, fun _ _ _ => opened.bind fun reply => ?_⟩
  rcases reply with e | ⟨⟨⟩⟩ <;> trivial

theorem closeSession_asks {host : Host} (begins : P (.note (.closing ctx.job.id)))
    (call : P (.note (.session (.closing ctx.reporterId ctx.scope ctx.closingCode))))
    (closed : (ctx.reporter.closed ctx.reporterId ctx.scope ctx.closingCode).Asks host P) :
    (Phase.closeSession.run ctx).Asks host P := by
  refine ⟨begins, fun _ _ _ => ⟨call, fun _ _ _ => closed.bind fun reply => ?_⟩⟩
  rcases reply with e | ⟨⟨⟩⟩ <;> trivial

/-! ## Tests and export -/

theorem erase_obeys (s : CoverageState) (remove : P (.removeFile s.dataFile)) :
    s.erase.Obeys P C fun r => r.2.dataFile = s.dataFile := by
  refine ⟨remove, fun reply => ?_⟩
  simp only [Program.bind]
  split <;> rfl

theorem collect_obeys (s : CoverageState) (read : P (.readFile s.dataFile)) :
    s.collect.Obeys P C fun r => r.2.dataFile = s.dataFile := by
  refine ⟨read, fun reply => ?_⟩
  simp only [Program.bind]
  split <;> rfl

theorem testRun_obeys (c : Config.Tests)
    (remove : P (.removeFile ctx.findings.coverage.dataFile))
    (command : ∀ i : Invocation, ctx.Owns i → i.IsTest → P (.command i))
    (read : P (.readFile ctx.findings.coverage.dataFile)) :
    ((Phase.testRun c).run ctx).Obeys P C fun r =>
      r.2.coverage.dataFile = ctx.findings.coverage.dataFile := by
  refine (erase_obeys _ remove).bind fun erased same => ?_
  obtain ⟨e | ⟨⟨⟩⟩, coverage⟩ := erased
  · exact same
  · dsimp only
    cases made : ctx.invocation "test suite" c.template with
    | error e => exact same
    | ok i =>
      have label : i.label = "test suite" := JobContext.label_of_invocation made
      have own := JobContext.owns_of_invocation made
      refine ⟨command _ ⟨own.cwd, own.env⟩ label, fun reply => ?_⟩
      have same : coverage.dataFile = ctx.findings.coverage.dataFile := same
      refine (collect_obeys coverage (same ▸ read)).bind fun collected again => ?_
      exact again.trans same

theorem exportCoverage_obeys (c : Config.Export)
    (command : ∀ i : Invocation, ctx.Owns i → i.IsExport → P (.command i))
    (present : P (.isPresent (ctx.workdir.join ⟨ctx.job.renderArg c.output⟩))) :
    ((Phase.exportCoverage c).run ctx).Obeys P C fun r =>
      r.2.coverage = ctx.findings.coverage := by
  unfold Phase.exportCoverage
  dsimp only
  cases made : ctx.invocation "coverage export" c.command with
  | error e => rfl
  | ok i =>
    refine ⟨command _ (JobContext.owns_of_invocation made) (JobContext.label_of_invocation made),
      fun reply => ?_⟩
    rcases reply with e | output
    · rfl
    · simp only [Program.bind]
      split
      · refine ⟨present, fun isPresent => ?_⟩
        cases isPresent <;> rfl
      · rfl

end Phase

/-! ## Pipelines -/

namespace JobPipeline

variable {stamp : Stamp} {I : Findings → Prop}

theorem runPhases_obeys {h : History} {f : Findings} {phases : List Phase} (start : I f)
    (each : ∀ phase ∈ phases, ∀ (h : History) (f : Findings), I f →
      (phase.run (h.contextOf ctx f)).Obeys P C fun r => I r.2) :
    (runPhases stamp (h.progress ctx stamp f) phases).Obeys P C fun _ => True := by
  induction phases generalizing h f with
  | nil => trivial
  | cons phase phases ih =>
    have rest := fun phase mem => each phase (List.mem_cons_of_mem _ mem)
    cases hk : h.admits phase.kind with
    | false =>
      rw [runPhases_of_not_admits hk]
      exact ih start rest
    | true =>
      rw [runPhases_of_admits hk]
      exact (each phase List.mem_cons_self h f start).bind fun r kept => ih kept rest

theorem runPhases_asks {host : Host} {h : History} {f : Findings} {phases : List Phase}
    (each : ∀ phase ∈ phases, ∀ (h : History) (f : Findings),
      (phase.run (h.contextOf ctx f)).Asks host P) :
    (runPhases stamp (h.progress ctx stamp f) phases).Asks host P := by
  induction phases generalizing h f with
  | nil => trivial
  | cons phase phases ih =>
    have rest := fun phase mem => each phase (List.mem_cons_of_mem _ mem)
    cases hk : h.admits phase.kind with
    | false =>
      rw [runPhases_of_not_admits hk]
      exact ih rest
    | true =>
      rw [runPhases_of_admits hk]
      exact (each phase List.mem_cons_self h f).bind fun r => ih rest

theorem runPhases_append (q : JobProgress) (phases others : List Phase) :
    runPhases stamp q (phases ++ others) =
      (runPhases stamp q phases).bind fun q => runPhases stamp q others := by
  induction phases generalizing q with
  | nil => rfl
  | cons phase phases ih =>
    simp only [List.cons_append, runPhases, Program.bind_eq, Program.bind_assoc, ih]

/-- A pipeline asks what its phases ask, where each of them finds what the ones before it left. -/
theorem run_obeys (p : JobPipeline) (fresh : ctx.resultCode = none ∧ ctx.aborted = false)
    (start : I ctx.findings)
    (each : ∀ phase ∈ p.phases, ∀ (h : History) (f : Findings), I f →
      (phase.run (h.contextOf ctx f)).Obeys P C fun r => I r.2) :
    (p.run ctx stamp).Obeys P C fun _ => True := by
  rw [run, Program.bind_eq, JobProgress.start_eq fresh.1 fresh.2]
  exact (runPhases_obeys start each).bind fun _ _ => trivial

end JobPipeline
end CoverageMatrix
