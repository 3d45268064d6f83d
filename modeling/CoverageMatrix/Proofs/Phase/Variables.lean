import CoverageMatrix.Proofs.Job.Plan
import CoverageMatrix.Proofs.Matrix.Verdict
import CoverageMatrix.Proofs.Program.Secrecy
import CoverageMatrix.Proofs.Reporting.Helper

/-!
# What the commands of a job are told

A command runs in the directory of its job, under the job's variables. On top of these the commands
that come after the tests are told how they ended, and those of the helper the identifier. What they
are told is written as a list of settings here, in which the last one of a name counts; so it is
the order of the list that says which variable hides which.
-/
namespace CoverageMatrix

/-! ## Settings -/

namespace EnvVars

variable {vars : EnvVars} {settings : List (String × String)}

/-- The variables are those that a list sets one after the other. -/
def IsSetBy (vars : EnvVars) (settings : List (String × String)) : Prop :=
  ∀ name, vars.get? name = settings.reverse.lookup name

theorem lookup_reverse {l : List (String × String)} (distinct : l.Pairwise fun a b => a.1 ≠ b.1)
    (name : String) : l.reverse.lookup name = l.lookup name := by
  induction l with
  | nil => rfl
  | cons p rest ih =>
    obtain ⟨n, v⟩ := p
    obtain ⟨apart, distinct⟩ := List.pairwise_cons.mp distinct
    rw [List.reverse_cons, List.lookup_append, ih distinct]
    by_cases h : name = n
    · subst h
      have missing : rest.lookup name = none :=
        List.lookup_eq_none_iff.mpr fun e mem => bne_iff_ne.mpr (apart e mem)
      rw [missing, lookup_cons_self, lookup_cons_self]
      rfl
    · rw [lookup_cons_of_ne h, lookup_cons_of_ne h, List.lookup_nil, Option.or_none]

theorem isSetBy_entries (vars : EnvVars) : vars.IsSetBy vars.entries :=
  fun name => (lookup_reverse vars.distinct name).symm

theorem IsSetBy.insert (h : vars.IsSetBy settings) (name value : String) :
    (vars.insert name value).IsSetBy (settings ++ [(name, value)]) := by
  intro other
  rw [get?_insert, h other, List.reverse_append, List.reverse_singleton, List.singleton_append]
  by_cases same : other = name
  · rw [if_pos same, same, lookup_cons_self]
  · rw [if_neg same, lookup_cons_of_ne same]

end EnvVars

/-- A command runs in a directory, under the variables that a list sets. -/
structure Invocation.RunsUnder (i : Invocation) (dir : Path) (settings : List (String × String)) :
    Prop where
  cwd : i.cwd = dir
  env : i.env.IsSetBy settings

/-- The settings that tell a command how the tests ended, once they have. -/
def resultSettings (code : Option Int) : List (String × String) :=
  code.toList.map fun n => (testResultVariable, toString n)

@[simp] theorem resultSettings_none : resultSettings none = [] := rfl

/-- What a command is told on top of the variables of its job. -/
def Invocation.extras (i : Invocation) (code : Option Int) (idEnv : String) (id : ReporterId) :
    List (String × String) :=
  (if i.label = "coverage export" ∨ i.label = "reporter after-build" then resultSettings code
    else []) ++
  if i.label = "reporter before-build" ∨ i.label = "reporter after-build" then [(idEnv, id.expose)]
    else []

/-! ## The commands of a phase -/

/-- What the commands of a phase are called. -/
def PhaseKind.Names : PhaseKind → Invocation → Prop
  | install, i => i.IsInstall
  | openSession, i => i.label = "reporter before-build"
  | testRun, i => i.IsTest
  | closeSession, i => i.label = "reporter after-build"
  | exportCoverage, i => i.IsExport

/-- What a command of a phase is told. -/
def PhaseKind.extras (code : Option Int) (idEnv : String) (id : ReporterId) :
    PhaseKind → List (String × String)
  | install | testRun => []
  | openSession => [(idEnv, id.expose)]
  | closeSession => resultSettings code ++ [(idEnv, id.expose)]
  | exportCoverage => resultSettings code

theorem PhaseKind.Names.extras_eq {kind : PhaseKind} {i : Invocation} (named : kind.Names i)
    (code : Option Int) (idEnv : String) (id : ReporterId) :
    i.extras code idEnv id = kind.extras code idEnv id := by
  cases kind with
  | install =>
    have apart := Invocation.IsInstall.label_ne named
    simp only [List.mem_cons, List.not_mem_nil, or_false, not_or] at apart
    simp [Invocation.extras, extras, apart]
  | openSession | testRun | closeSession | exportCoverage =>
    simp [Invocation.extras, extras, show i.label = _ from named]

/-- The commands of different phases have different names. -/
theorem PhaseKind.Names.unique {kind other : PhaseKind} {i : Invocation} (named : kind.Names i)
    (again : other.Names i) : kind = other := by
  have apart : i.IsInstall → _ := Invocation.IsInstall.label_ne
  cases kind <;> cases other <;> simp_all [Names, Invocation.IsTest, Invocation.IsExport]

/-- Whether the commands of a phase are the helper's. -/
def PhaseKind.isSession : PhaseKind → Bool
  | openSession | closeSession => true
  | install | testRun | exportCoverage => false

/-- A command of a phase is called as such commands are, and is the job's own but for the variable
that tells the helper the identifier. -/
structure JobContext.Makes (ctx : JobContext) (idEnv : String) (kind : PhaseKind) (i : Invocation) :
    Prop where
  names : kind.Names i
  cwd : i.cwd = ctx.workdir
  env : i.env = if kind.isSession then ctx.env.insert idEnv ctx.reporterId.expose else ctx.env

theorem JobContext.Owns.makes {ctx : JobContext} {i : Invocation} (own : ctx.Owns i)
    (kind : PhaseKind) (named : kind.Names i) (plain : kind.isSession = false) (idEnv : String) :
    (Request.command i).Hands (ctx.Makes idEnv kind) :=
  Request.hands_command ⟨named, own.cwd, by rw [own.env, plain]; rfl⟩

/-! ### The helper -/

namespace Helper

variable (h : Helper) (id : ReporterId) (scope : SessionScope)

/-- A command of the helper for a session. -/
structure Tells (label : String) (i : Invocation) : Prop where
  label : i.label = label
  cwd : i.cwd = scope.workdir
  env : i.env = scope.env.insert h.idEnv id.expose

theorem invoke_tells (args : List String) {label : String}
    (named : "reporter " ++ args.headD "" = label) : (h.invoke args id scope).Obeys
      (Request.Hands (h.Tells id scope label)) False fun _ => True := by
  have asks := h.invoke_asks id scope args
  generalize h.invoke args id scope = p at asks ⊢
  refine asks.mono (fun r asked => ?_) False.elim fun _ _ => trivial
  obtain ⟨i, rfl, made⟩ := asked
  refine Request.hands_command ?_
  rw [h.eq_of_invocation id scope made]
  exact ⟨named, rfl, rfl⟩

theorem opened_tells : (h.reporter.opened id scope).Obeys
    (Request.Hands (h.Tells id scope "reporter before-build")) False fun _ => True := by
  have eq : h.reporter.opened id scope = _ := h.openSession_eq id scope
  have silent : (h.acquire (h.locationFor scope)).Obeys
      (Request.Hands (h.Tells id scope "reporter before-build")) False fun _ => True :=
    (h.acquire_silent _).mono (fun _ quiet => (Request.isIdle_of_notes_eq_nil quiet).hands _)
      False.elim fun _ _ => trivial
  rw [eq]
  refine silent.bind fun reply _ => ?_
  rcases reply with e | ⟨⟨⟩⟩
  · trivial
  · have acquired : (Request.note (.acquired scope.jobId)).IsIdle := rfl
    have named : "reporter " ++ ["before-build"].headD "" = "reporter before-build" := by simp
    have told := h.invoke_tells id scope ["before-build"] named
    rw [afterAcquiring]
    generalize h.invoke ["before-build"] id scope = p at told ⊢
    exact ⟨acquired.hands _, fun _ => told⟩

theorem closed_tells (code : Int) : (h.reporter.closed id scope code).Obeys
    (Request.Hands (h.Tells id scope "reporter after-build")) False fun _ => True := by
  have eq : h.reporter.closed id scope code = _ := h.closeSession_eq id scope code
  have known : (Request.wasAcquired scope.jobId).IsIdle := rfl
  have named : "reporter " ++ ["after-build", "--exit-code", toString code].headD "" =
      "reporter after-build" := by simp
  have told := h.invoke_tells id scope ["after-build", "--exit-code", toString code] named
  rw [eq]
  refine ⟨known.hands _, fun acquired => ?_⟩
  cases acquired with
  | false => trivial
  | true =>
    rw [afterAsking]
    generalize h.invoke ["after-build", "--exit-code", toString code] id scope = p at told ⊢
    exact told

end Helper

/-! ### The standard pipeline -/

variable {ctx : JobContext} {helper : Helper}

/-- What the phases of the standard pipeline hand over, if they report through the helper. -/
theorem JobPipeline.standard_makes (c : Config) (reports : ctx.reporter = helper.reporter) :
    ∀ phase ∈ (standard c).phases,
      (phase.run ctx).Obeys (Request.Hands (ctx.Makes helper.idEnv phase.kind)) True
        fun _ => True := by
  intro phase mem
  have silent {r : Request} (idle : r.IsIdle) : r.Hands (ctx.Makes helper.idEnv phase.kind) :=
    idle.hands _
  simp only [standard, List.mem_cons, List.not_mem_nil, or_false] at mem
  rcases mem with rfl | rfl | rfl | rfl | rfl
  · have install : ∀ i, ctx.Owns i → i.IsInstall →
        (Request.command i).Hands (ctx.Makes helper.idEnv .install) :=
      fun i own named => own.makes .install named rfl _
    exact (Phase.install_obeys ctx _ _ (C := True) install).ends_mono fun _ _ => trivial
  · have opened : (ctx.reporter.opened ctx.reporterId ctx.scope).Obeys
        (Request.Hands (ctx.Makes helper.idEnv .openSession)) True fun _ => True := by
      rw [reports]
      exact (helper.opened_tells _ _).mono
        (fun _ tells i mem => ⟨(tells i mem).label, (tells i mem).cwd, (tells i mem).env⟩)
        False.elim fun _ _ => trivial
    exact (Phase.openSession_obeys (silent rfl) opened).ends_mono fun _ _ => trivial
  · have erase : (Request.removeFile ctx.findings.coverage.dataFile).IsIdle := rfl
    have collect : (Request.readFile ctx.findings.coverage.dataFile).IsIdle := rfl
    have test : ∀ i, ctx.Owns i → i.IsTest →
        (Request.command i).Hands (ctx.Makes helper.idEnv .testRun) :=
      fun i own named => own.makes .testRun named rfl _
    have asks := Phase.testRun_obeys ctx c.tests (C := True) (silent erase) test (silent collect)
    exact asks.ends_mono fun _ _ => trivial
  · have closed : (ctx.reporter.closed ctx.reporterId ctx.scope ctx.closingCode).Obeys
        (Request.Hands (ctx.Makes helper.idEnv .closeSession)) True fun _ => True := by
      rw [reports]
      exact (helper.closed_tells _ _ _).mono
        (fun _ tells i mem => ⟨(tells i mem).label, (tells i mem).cwd, (tells i mem).env⟩)
        False.elim fun _ _ => trivial
    exact (Phase.closeSession_obeys (silent rfl) (silent rfl) closed).ends_mono fun _ _ => trivial
  · have look : (Request.isPresent (ctx.workdir.join ⟨ctx.job.renderArg c.exports.output⟩)).IsIdle :=
      rfl
    have exports : ∀ i, ctx.Owns i → i.IsExport →
        (Request.command i).Hands (ctx.Makes helper.idEnv .exportCoverage) :=
      fun i own named => own.makes .exportCoverage named rfl _
    have asks := Phase.exportCoverage_obeys ctx c.exports (C := True) exports (silent look)
    exact asks.ends_mono fun _ _ => trivial

end CoverageMatrix
