import CoverageMatrix.Proofs.Phase.Variables
import Mathlib.Data.List.Infix

/-!
# What a job tells its commands

Each exchange of a job is made by one of its phases, which finds what the phases before it have left
(`Course.exists_phase`). A command is told of the tests what had become of them by then, and that
stands in the exchanges before it (`Course.codes_eq`).
-/
namespace CoverageMatrix

/-! ## The code of the tests -/

instance (i : Invocation) : Decidable i.IsTest :=
  inferInstanceAs (Decidable (i.label = "test suite"))

/-- The code that the tests gave in an exchange, if their command was answered in it. -/
def Exchange.testCode? : Exchange → Option Int
  | ⟨.command i, some reply⟩ => if i.IsTest then some (Phase.testCode reply) else none
  | _ => none

/-- The codes that the tests gave in a transcript. -/
def Transcript.testCodes (t : Transcript) : List Int :=
  t.filterMap Exchange.testCode?

/-- A request that does not run the tests. -/
theorem Exchange.testCode?_eq_none {e : Exchange} (other : (e.request).Hands (¬·.IsTest)) :
    e.testCode? = none := by
  obtain ⟨r, reply⟩ := e
  cases r with
  | command i =>
    have apart : ¬i.IsTest := other i (List.mem_singleton_self i)
    cases reply with
    | none => rfl
    | some reply => exact if_neg apart
  | _ => rfl

namespace Transcript

@[simp] theorem testCodes_append (t u : Transcript) :
    testCodes (t ++ u) = t.testCodes ++ u.testCodes :=
  List.filterMap_append

theorem testCodes_eq_nil {t : Transcript} (other : ∀ e ∈ t, e.request.Hands (¬·.IsTest)) :
    t.testCodes = [] :=
  List.filterMap_eq_nil_iff.mpr fun e mem => Exchange.testCode?_eq_none (other e mem)

end Transcript

variable {ctx : JobContext}

theorem Phase.testCodes_testRun {c : Config.Tests} {t : Transcript} {o : PhaseOutcome} {g : Findings}
    (run : ((testRun c).run ctx).Follows t (some (o, g))) :
    t.testCodes = History.codes [(.testRun, some o)] := by
  have none {e : Exchange} (idle : e.request.IsIdle) : e.testCode? = none :=
    Exchange.testCode?_eq_none (idle.hands _)
  obtain ⟨e, i, reply, u, rfl, made, rfl, first, last⟩ | ⟨e, reason, rfl, rfl, idle⟩ :=
    testRun_ends run
  · have label : i.label = "test suite" := JobContext.label_of_invocation made
    have test : (i.withTimeout c.timeoutSecs).IsTest := label
    have told : Exchange.testCode? ⟨.command (i.withTimeout c.timeoutSecs), some reply⟩ =
        some (testCode reply) := if_pos test
    have rest : Transcript.testCodes u = [] :=
      List.filterMap_eq_nil_iff.mpr fun x mem => none (last x mem)
    rw [Transcript.testCodes, List.filterMap_cons_none (none first), List.filterMap_cons_some told,
      ← Transcript.testCodes, rest]
    rfl
  · rw [Transcript.testCodes, List.filterMap_cons_none (none idle)]
    rfl

/-! ## Phase by phase -/

variable {h h' : History} {f f' : Findings} {phases : List Phase} {t u v : Transcript}
  {x : Exchange} {e : Option (History × Findings)}

/-- An exchange of two transcripts one after the other is one of the first or of the second. -/
theorem Transcript.append_eq_append_cons {t t' : Transcript} (split : t ++ t' = u ++ x :: v) :
    (∃ w, t = u ++ x :: w) ∨ ∃ u', u = t ++ u' ∧ t' = u' ++ x :: v := by
  rcases List.append_eq_append_iff.mp split with ⟨u', rfl, rest⟩ | ⟨w, rfl, rest⟩
  · exact .inr ⟨u', rfl, rest⟩
  · rcases List.cons_eq_append_iff.mp rest with ⟨rfl, rest⟩ | ⟨w, rfl, -⟩
    · exact .inr ⟨[], by simp, rest.symm⟩
    · exact .inl ⟨w, rfl⟩

/-- Each exchange of a job is made by one of its phases, after the course of those before it. -/
theorem Course.exists_phase (course : Course ctx h f phases t e) (split : t = u ++ x :: v) :
    ∃ before phase after h' f' u₁ u₂ w o, phases = before ++ phase :: after ∧ u = u₁ ++ u₂ ∧
      Course ctx h f before u₁ (some (h', f')) ∧ h'.admits phase.kind = true ∧
      (phase.run (h'.contextOf ctx f')).Follows (u₂ ++ x :: w) o := by
  induction course generalizing u with
  | finished => simp at split
  | @skipped h f phase phases t e hk _ ih =>
    obtain ⟨before, other, after, h', f', u₁, u₂, w, o, rfl, rfl, course, rest⟩ := ih split
    exact ⟨phase :: before, other, after, h', f', u₁, u₂, w, o, rfl, rfl, .skipped hk course, rest⟩
  | @ran h f g phase phases o t t' e hk run _ ih =>
    rcases Transcript.append_eq_append_cons split with ⟨w, rfl⟩ | ⟨u', rfl, rest⟩
    · exact ⟨[], phase, phases, h, f, [], u, w, _, rfl, rfl, .finished, hk, run⟩
    · obtain ⟨before, other, after, h', f', u₁, u₂, w, o', rfl, rfl, course, rest⟩ := ih rest
      exact ⟨phase :: before, other, after, h', f', t ++ u₁, u₂, w, o', rfl,
        (List.append_assoc ..).symm, .ran hk run course, rest⟩
  | @brokeDown h f phase phases t hk run =>
    subst split
    exact ⟨[], phase, phases, h, f, [], u, v, none, rfl, rfl, .finished, hk, run⟩

/-- Where each phase completes with the codes that the tests gave in it, so does the whole course. -/
theorem Course.codes_eq (course : Course ctx h f phases t (some (h', f')))
    (each : ∀ phase ∈ phases, ∀ (h : History) (f : Findings) (t : Transcript) (o : PhaseOutcome)
      (g : Findings), (phase.run (h.contextOf ctx f)).Follows t (some (o, g)) →
        t.testCodes = History.codes [(phase.kind, some o)]) :
    h'.codes = h.codes ++ t.testCodes := by
  generalize he : some (h', f') = e at course
  induction course with
  | finished =>
    cases he
    exact (List.append_nil _).symm
  | skipped _ _ ih =>
    rw [ih (fun phase mem => each phase (List.mem_cons_of_mem _ mem)) he, History.codes_append]
    simp [History.codes]
  | ran _ run _ ih =>
    rw [ih (fun phase mem => each phase (List.mem_cons_of_mem _ mem)) he, History.codes_append,
      Transcript.testCodes_append, each _ List.mem_cons_self _ _ _ _ _ run, List.append_assoc]
  | brokeDown => cases he

/-! ## The standard pipeline -/

variable {c : Config}

theorem PhaseKind.codes_eq_nil {kind : PhaseKind} {o : PhaseOutcome} (allowed : kind.allows o = true)
    (other : kind ≠ .testRun) : History.codes [(kind, some o)] = [] :=
  History.codes_eq_nil (by simpa using allowed) (by simpa using other.symm)

theorem JobPipeline.standard_testCodes (c : Config) (helper : Helper)
    (reports : ctx.reporter = helper.reporter) :
    ∀ phase ∈ (standard c).phases, ∀ (h : History) (f : Findings) (t : Transcript)
      (o : PhaseOutcome) (g : Findings),
      (phase.run (h.contextOf ctx f)).Follows t (some (o, g)) →
        t.testCodes = History.codes [(phase.kind, some o)] := by
  intro phase mem h f t o g run
  by_cases tests : phase.kind = .testRun
  · simp only [standard, List.mem_cons, List.not_mem_nil, or_false] at mem
    rcases mem with rfl | rfl | rfl | rfl | rfl
    · cases tests
    · cases tests
    · exact Phase.testCodes_testRun run
    · cases tests
    · cases tests
  · rw [PhaseKind.codes_eq_nil (run.ends (standard_allows c phase mem _)) tests]
    have same : (h.contextOf ctx f).reporter = helper.reporter := reports
    have makes := run.asks (standard_makes c same phase mem)
    refine Transcript.testCodes_eq_nil fun e among i handed test => tests ?_
    exact (makes e among i handed).names.unique test

/-- Of the phases of the standard pipeline only the closing and the export come after the tests. -/
theorem PhaseKind.eq_of_after_tests {before after : List PhaseKind} {kind : PhaseKind}
    (split : all = before ++ kind :: after) (tested : .testRun ∈ before) :
    kind = .closeSession ∨ kind = .exportCoverage := by
  have each : ∀ l ∈ all.inits, .testRun ∈ l.dropLast →
      l.getLast? = some .closeSession ∨ l.getLast? = some .exportCoverage := by
    decide
  have beginning : before ++ [kind] <+: all := ⟨after, by rw [split]; simp⟩
  have last := each _ ((List.mem_inits _ _).mpr beginning) (by simpa using tested)
  simpa using last

/-- Where the tests have given a code, only the closing and the export are left. -/
theorem Course.kind_of_codes {before after : List Phase} {phase : Phase}
    (course : Course ctx [] ctx.findings before t (some (h, f)))
    (phases : (JobPipeline.standard c).phases = before ++ phase :: after) (tested : h.codes ≠ []) :
    phase.kind = .closeSession ∨ phase.kind = .exportCoverage := by
  have kinds : PhaseKind.all = before.map Phase.kind ++ phase.kind :: after.map Phase.kind := by
    have same : PhaseKind.all = (before ++ phase :: after).map Phase.kind :=
      congrArg (List.map Phase.kind) phases
    rwa [List.map_append, List.map_cons] at same
  have allows : ∀ kind o, (kind, some o) ∈ h → kind.allows o = true :=
    course.outcomes (fun p mem => JobPipeline.standard_allows c p (by simp [phases, mem])) (by simp)
  refine PhaseKind.eq_of_after_tests kinds (Classical.byContradiction fun missing => tested ?_)
  refine History.codes_eq_nil allows ?_
  rwa [(course.kinds_lawful .nil).1]

/-- What the environment of a job is while its phases go on. -/
theorem History.env_contextOf {settings : List (String × String)} (h : History) (f : Findings)
    (start : ctx.env.IsSetBy settings) :
    (h.contextOf ctx f).env.IsSetBy (settings ++ resultSettings h.codes.head?) := by
  rw [History.contextOf]
  cases h.codes.head? with
  | none => simpa [resultSettings] using start
  | some code => exact start.insert _ _

theorem JobContext.Makes.runsUnder {settings : List (String × String)} {kind : PhaseKind}
    {idEnv : String} {i : Invocation} {h : History} {f : Findings}
    (makes : (h.contextOf ctx f).Makes idEnv kind i) (start : ctx.env.IsSetBy settings)
    (early : h.codes ≠ [] → kind = .closeSession ∨ kind = .exportCoverage) :
    i.RunsUnder ctx.workdir (settings ++ i.extras h.codes.head? idEnv ctx.reporterId) := by
  refine ⟨makes.cwd, ?_⟩
  have env := h.env_contextOf f start
  have id : (h.contextOf ctx f).reporterId = ctx.reporterId := rfl
  rw [makes.env, makes.names.extras_eq, id]
  cases kind with
  | install | testRun =>
    have none : h.codes = [] := by simpa using early
    rw [none] at env
    simpa [PhaseKind.extras, PhaseKind.isSession] using env
  | openSession =>
    have none : h.codes = [] := by simpa using early
    rw [none] at env
    have told := env.insert idEnv ctx.reporterId.expose
    simpa [PhaseKind.extras, PhaseKind.isSession] using told
  | closeSession =>
    have told := env.insert idEnv ctx.reporterId.expose
    rwa [List.append_assoc] at told
  | exportCoverage => exact env

/-- A command of a job in the standard pipeline runs in the job's directory, under the variables of
the job, the code that the tests have given until then if it comes after them, and the identifier if
it is the helper's. -/
theorem Course.runsUnder {settings : List (String × String)} {i : Invocation}
    (course : Course ctx [] ctx.findings (JobPipeline.standard c).phases t e)
    (helper : Helper) (reports : ctx.reporter = helper.reporter)
    (start : ctx.env.IsSetBy settings) (split : t = u ++ x :: v) (mem : i ∈ commandsOf x.request.notes) :
    i.RunsUnder ctx.workdir
        (settings ++ i.extras u.testCodes.head? helper.idEnv ctx.reporterId) ∧
      (i.IsExport → u.testCodes.head? = some 0) := by
  obtain ⟨before, phase, after, h, f, u₁, u₂, w, o, phases, rfl, earlier, admitted, run⟩ :=
    course.exists_phase split
  have same : (h.contextOf ctx f).reporter = helper.reporter := reports
  have makes := run.asks (JobPipeline.standard_makes c same phase (by simp [phases]))
  have makes_i := makes x (by simp) i mem
  have codes : h.codes = u₁.testCodes := earlier.codes_eq fun p mem =>
    JobPipeline.standard_testCodes c helper reports p (by simp [phases, mem])
  -- the tests give their codes in a phase of their own
  have later (other : phase.kind ≠ .testRun) : (u₁ ++ u₂).testCodes = h.codes := by
    have none : u₂.testCodes = [] := Transcript.testCodes_eq_nil fun e mem j handed test =>
      other ((makes e (by simp [mem]) j handed).names.unique test)
    rw [Transcript.testCodes_append, none, List.append_nil, codes]
  constructor
  · have told : i.extras (u₁ ++ u₂).testCodes.head? helper.idEnv ctx.reporterId =
        i.extras h.codes.head? helper.idEnv ctx.reporterId := by
      by_cases tests : phase.kind = .testRun
      · rw [makes_i.names.extras_eq, makes_i.names.extras_eq, tests]
        rfl
      · rw [later tests]
    rw [told]
    exact makes_i.runsUnder start (earlier.kind_of_codes phases)
  · intro exports
    have kind : phase.kind = .exportCoverage := makes_i.names.unique exports
    rw [kind, History.admits, Bool.and_eq_true] at admitted
    rw [later (by simp [kind])]
    simpa using admitted.2

end CoverageMatrix
