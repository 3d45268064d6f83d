import CoverageMatrix.Proofs.Coverage.State
import CoverageMatrix.Proofs.Phase.Requests
import CoverageMatrix.Proofs.Program.Surroundings

/-!
# What a job sees of earlier coverage data

A file that was left at the place of a job's coverage data does not come through to the job: until
the tests nothing looks at it, the tests begin by erasing it, and afterwards two worlds that
differed in it are the same. A job that is aborted before its tests does not export either.
-/
namespace CoverageMatrix

open Files.Tree (DifferAt Cleared)

/-- Two worlds have one journal, and their files differ at most in a regular file at a path. -/
structure World.AlikeBut (cwd : Files.Location) (p : Path) (w v : World) : Prop where
  files : DifferAt cwd p w.files v.files
  journal : w.journal = v.journal

/-- A request that does not touch the file at a path: it is answered alike and has the same effects
whatever is in that file. -/
def Request.Spares (host : Host) (p : Path) (r : Request) : Prop :=
  ∀ w v : World, w.AlikeBut host.cwd p v →
    (host.answer w r).1 = (host.answer v r).1 ∧
      (host.answer w r).2.AlikeBut host.cwd p (host.answer v r).2

/-- A request that is not the command of the tests. -/
def Request.IsAside (r : Request) : Prop :=
  ∀ i, r = .command i → ¬i.IsTest

variable {host : Host} {p : Path} {ctx : JobContext} {stamp : Stamp}

theorem Request.spares_note (n : Note) : (note n).Spares host p :=
  fun _ _ alike => ⟨rfl, alike.files, congrArg (· ++ [n]) alike.journal⟩

theorem Program.Obeys.run_ends {α : Type} {P : Request → Prop} {C : Prop} {Q : α → Prop}
    {q : Program α} (h : q.Obeys P C Q) {w : World} {a : α} (ends : (q.run host w).1 = some a) :
    Q a := by
  obtain ⟨t, follows, -⟩ := exists_follows_run host q w
  rw [ends] at follows
  exact follows.ends h

theorem Program.RunsAlike.and_ends {α : Type} {P : Request → Prop} {C : Prop} {Q : α → Prop}
    {R : World → World → Prop} {S : Option α → World → World → Prop} {q : Program α}
    (h : RunsAlike host R q S) (ends : q.Obeys P C Q) :
    RunsAlike host R q fun o w v => S o w v ∧ ∀ a, o = some a → Q a := by
  intro w v related
  obtain ⟨same, after⟩ := h w v related
  exact ⟨same, after, fun a eq => ends.run_ends eq⟩

/-! ## Erasing -/

/-- Erasing the data file makes worlds the same that differed in it. -/
theorem CoverageState.erase_runsAlike (s : CoverageState) :
    s.erase.RunsAlike host (World.AlikeBut host.cwd s.dataFile) fun _ => World.Same := by
  intro w v alike
  rcases alike.files.cleared with ⟨t, u, cleared, cleared', same⟩ | ⟨fault, other, hw, hv, same⟩
  · rw [run_erase_of_cleared cleared, run_erase_of_cleared cleared']
    exact ⟨rfl, same, alike.journal⟩
  · rw [run_erase_of_error hw other, run_erase_of_error hv other]
    exact ⟨rfl, same, alike.journal⟩

theorem Phase.testRun_runsAlike (goes : host.GoesByFiles) (ctx : JobContext) (c : Config.Tests) :
    ((Phase.testRun c).run ctx).RunsAlike host
      (World.AlikeBut host.cwd ctx.findings.coverage.dataFile) fun _ => World.Same :=
  Program.RunsAlike.bind (CoverageState.erase_runsAlike _) (fun _ => goes.runsAlike _)
    fun _ _ same => same

/-! ## The other phases -/

/-- A phase of a job that has nothing to do with the tests: it does not run them, and it leaves
alone what is known of their coverage. -/
structure Phase.IsAside (host : Host) (ctx : JobContext) (phase : Phase) : Prop where
  asks : ∀ (h : History) (f : Findings),
    (phase.run (h.contextOf ctx f)).Asks host Request.IsAside
  keeps : ∀ (h : History) (f : Findings),
    (phase.run (h.contextOf ctx f)).Obeys (fun _ => True) True fun r => r.2.coverage = f.coverage

namespace Phase

theorem install_isAside (actions : List InstallAction) (c : Config.Installers) :
    (Phase.install actions c).IsAside host ctx where
  asks h f := by
    have asks := install_obeys (h.contextOf ctx f) actions c (P := Request.IsAside) (C := True)
      fun i _ install j eq => by
        cases eq
        exact install.not_isTest
    exact asks.asks
  keeps h f := by
    have ends := install_obeys (h.contextOf ctx f) actions c (P := fun _ => True) (C := True)
      fun _ _ _ => trivial
    exact ends.ends_mono fun r eq => congrArg (·.coverage) eq

theorem openSession_isAside
    (opened : ∀ env, (ctx.reporter.opened ctx.reporterId ⟨ctx.job.id, ctx.workdir, env⟩).Asks host
      Request.IsAside) : openSession.IsAside host ctx where
  asks h f := openSession_asks (h.contextOf ctx f) (fun _ eq => by cases eq) (opened _)
  keeps h f := by
    have ends := openSession_findings (h.contextOf ctx f) (P := fun _ => True) (C := True) trivial
      (Program.obeys_true _)
    exact ends.ends_mono fun r eq => congrArg (·.coverage) eq

theorem closeSession_isAside
    (closed : ∀ env code, (ctx.reporter.closed ctx.reporterId ⟨ctx.job.id, ctx.workdir, env⟩
      code).Asks host Request.IsAside) : closeSession.IsAside host ctx where
  asks h f := closeSession_asks (h.contextOf ctx f) (fun _ eq => by cases eq)
    (fun _ eq => by cases eq) (closed _ _)
  keeps h f := by
    have ends := closeSession_findings (h.contextOf ctx f) (P := fun _ => True) (C := True) trivial
      trivial (Program.obeys_true _)
    exact ends.ends_mono fun r eq => congrArg (·.coverage) eq

theorem exportCoverage_isAside (c : Config.Export) : (exportCoverage c).IsAside host ctx where
  asks h f := by
    have asks := exportCoverage_obeys (h.contextOf ctx f) c (P := Request.IsAside) (C := True)
      (fun i _ exports j eq => by
        cases eq
        rw [Invocation.IsTest, exports]
        simp)
      fun _ eq => by cases eq
    exact asks.asks
  keeps h f := exportCoverage_obeys (h.contextOf ctx f) c (fun _ _ _ => trivial) trivial

end Phase

namespace JobPipeline

variable {h : History} {f : Findings} {phases : List Phase}

theorem runPhases_keeps (aside : ∀ phase ∈ phases, phase.IsAside host ctx) :
    (runPhases stamp (h.progress ctx stamp f) phases).Obeys (fun _ => True) True fun q =>
      ∃ (h' : History) (f' : Findings), q = History.progress (h ++ h') ctx stamp f' ∧
        f'.coverage = f.coverage := by
  induction phases generalizing h f with
  | nil => exact ⟨[], f, by rw [List.append_nil], rfl⟩
  | cons phase phases ih =>
    have rest := fun phase mem => aside phase (List.mem_cons_of_mem _ mem)
    cases hk : h.admits phase.kind with
    | false =>
      rw [runPhases_of_not_admits hk]
      refine (ih rest).ends_mono fun q ends => ?_
      obtain ⟨h', f', rfl, kept⟩ := ends
      exact ⟨_, f', by rw [List.append_assoc], kept⟩
    | true =>
      rw [runPhases_of_admits hk]
      refine ((aside phase List.mem_cons_self).keeps h f).bind fun r same => ?_
      refine (ih rest).ends_mono fun q ends => ?_
      obtain ⟨h', f', rfl, kept⟩ := ends
      exact ⟨_, f', by rw [List.append_assoc], kept.trans same⟩

theorem runPhases_runsAlike (stamp : Stamp) (h : History) (f : Findings)
    (aside : ∀ phase ∈ phases, phase.IsAside host ctx)
    (spares : ∀ phase ∈ phases, ∀ (h : History) (f : Findings),
      (phase.run (h.contextOf ctx f)).Asks host (Request.Spares host p)) :
    (runPhases stamp (h.progress ctx stamp f) phases).RunsAlike host (World.AlikeBut host.cwd p)
      fun o w v => w.AlikeBut host.cwd p v ∧ ∀ q, o = some q →
        ∃ (h' : History) (f' : Findings), q = History.progress (h ++ h') ctx stamp f' ∧
          f'.coverage = f.coverage :=
  (runPhases_asks spares).runsAlike.and_ends (runPhases_keeps aside)

/-- From the tests on, a job runs alike whatever was in its data file: the tests erase the file, and
if they are passed over, so is the export. -/
theorem runPhases_runsAlike_from_tests (goes : host.GoesByFiles) (c : Config.Tests)
    {closer exporter : Phase} (aside : closer.IsAside host ctx)
    (spares : ∀ (h : History) (f : Findings),
      (closer.run (h.contextOf ctx f)).Asks host (Request.Spares host p))
    (exports : exporter.kind = .exportCoverage) (h : History) {f : Findings}
    (hp : f.coverage.dataFile = p) :
    (runPhases stamp (h.progress ctx stamp f) [.testRun c, closer, exporter]).RunsAlike
      host (World.AlikeBut host.cwd p) fun _ w v => w.journal = v.journal := by
  subst hp
  cases hk : h.admits (Phase.testRun c).kind with
  | true =>
    rw [runPhases_of_admits hk]
    refine Program.RunsAlike.bind (S := fun _ => World.Same)
      (Phase.testRun_runsAlike goes (h.contextOf ctx f) c) (fun r => ?_)
      fun w v same => same.journal
    exact (goes.runsAlike _).mono (fun _ _ same => same) fun _ _ _ same => same.journal
  | false =>
    have aborted : h.abort?.isSome = true := by
      simpa [History.admits, Phase.testRun] using hk
    have parts : ∀ q, runPhases stamp q [closer, exporter] =
        (runPhases stamp q [closer]).bind fun q => runPhases stamp q [exporter] :=
      fun q => runPhases_append q [closer] [exporter]
    have closing := runPhases_runsAlike stamp (h ++ [((Phase.testRun c).kind, none)]) f
      (List.forall_mem_singleton.mpr aside) (List.forall_mem_singleton.mpr spares)
    rw [runPhases_of_not_admits hk, parts]
    refine closing.bind (fun q => ?_) fun w v after => after.1.journal
    rintro w v ⟨alike, progress⟩
    obtain ⟨g, f', rfl, -⟩ := progress q rfl
    have passedOver :
        History.admits (h ++ [((Phase.testRun c).kind, none)] ++ g) exporter.kind = false := by
      obtain ⟨abort, eq⟩ := Option.isSome_iff_exists.mp aborted
      rw [exports, History.admits, History.abort?_append, History.abort?_append, eq]
      rfl
    rw [runPhases_of_not_admits passedOver]
    exact ⟨rfl, alike.journal⟩

end JobPipeline

/-! ## What the tests leave -/

/-- No command of the tests among what a run met found anything at the data file's place. -/
def Unseen (host : Host) (p : Path) (met : List (Request × World)) : Prop :=
  ∀ i v, (Request.command i, v) ∈ met → i.IsTest → v.files.isPresent host.cwd p = false

/-- A dataset is that of the content that the data file had right after the command of the tests,
which was among what a run met. -/
def Collected (host : Host) (p : Path) (met : List (Request × World)) (d : CoverageDataset) :
    Prop :=
  ∃ i v content, (Request.command i, v) ∈ met ∧ i.IsTest ∧
    (host.answer v (.command i)).2.files.read host.cwd p = .ok content ∧
    d = ⟨p, content.size, Sha256.hexDigest content.toList⟩

theorem not_collected_of_isAside {met : List (Request × World)} {d : CoverageDataset}
    (aside : ∀ e ∈ met, e.1.IsAside) : ¬Collected host p met d := by
  rintro ⟨i, v, content, mem, test, -⟩
  exact aside _ mem i rfl test

theorem unseen_of_isAside {met : List (Request × World)} (aside : ∀ e ∈ met, e.1.IsAside) :
    Unseen host p met :=
  fun i _ mem test => (aside _ mem i rfl test).elim

theorem Unseen.append {met more : List (Request × World)} (h : Unseen host p met)
    (g : Unseen host p more) : Unseen host p (met ++ more) := by
  intro i v mem test
  rcases List.mem_append.mp mem with mem | mem
  · exact h i v mem test
  · exact g i v mem test

theorem collected_append_iff {met more : List (Request × World)} {d : CoverageDataset} :
    Collected host p (met ++ more) d ↔ Collected host p met d ∨ Collected host p more d := by
  constructor
  · rintro ⟨i, v, content, mem, rest⟩
    rcases List.mem_append.mp mem with mem | mem
    · exact .inl ⟨i, v, content, mem, rest⟩
    · exact .inr ⟨i, v, content, mem, rest⟩
  · rintro (⟨i, v, content, mem, rest⟩ | ⟨i, v, content, mem, rest⟩)
    · exact ⟨i, v, content, List.mem_append_left _ mem, rest⟩
    · exact ⟨i, v, content, List.mem_append_right _ mem, rest⟩

/-- Where the data file is read behind the command of the tests, its content is collected. -/
theorem collected_pair_iff {i : Invocation} (test : i.IsTest) {v u : World} {d : CoverageDataset} :
    Collected host p [(.command i, v), (.readFile p, u)] d ↔
      ∃ content, (host.answer v (.command i)).2.files.read host.cwd p = .ok content ∧
        d = ⟨p, content.size, Sha256.hexDigest content.toList⟩ := by
  constructor
  · rintro ⟨j, x, content, mem, -, rest⟩
    rcases List.mem_cons.mp mem with eq | mem
    · cases eq
      exact ⟨content, rest⟩
    · cases List.mem_singleton.mp mem
  · rintro ⟨content, rest⟩
    exact ⟨i, v, content, List.mem_cons_self, test, rest⟩

namespace CoverageState

variable {s : CoverageState} {w v : World}

theorem encounters_erase (s : CoverageState) (w : World) :
    s.erase.encounters host w = [(.removeFile s.dataFile, w)] := by
  change (Program.ask (.removeFile s.dataFile) _).encounters host w = _
  rw [Program.encounters]
  rcases host.answer w (.removeFile s.dataFile) with ⟨_ | reply, w'⟩
  · rfl
  · simp only [Program.bind]
    split <;> rfl

theorem encounters_collect (s : CoverageState) (w : World) :
    s.collect.encounters host w = [(.readFile s.dataFile, w)] := by
  change (Program.ask (.readFile s.dataFile) _).encounters host w = _
  rw [Program.encounters]
  rcases host.answer w (.readFile s.dataFile) with ⟨_ | reply, w'⟩
  · rfl
  · simp only [Program.bind]
    split <;> rfl

/-- What is collected is the content of the data file, if it can be read. -/
theorem run_collect (s : CoverageState) (host : Host) (fresh : s.dataset = none) (w : World) :
    ∃ result s', (s.collect.run host w).1 = some (result, s') ∧
      ∀ d, s'.dataset = some d ↔
        ∃ content, w.files.read host.cwd s.dataFile = .ok content ∧
          d = ⟨s.dataFile, content.size, Sha256.hexDigest content.toList⟩ := by
  rcases s.run_collect_cases host w with ⟨content, read, ran⟩ | ⟨missing, ran⟩ | ⟨fault, failed, ran⟩
  · rw [ran, read]
    exact ⟨_, _, rfl, fun d => by simp [CoverageDataset.ofContent, eq_comm]⟩
  · rw [ran, missing]
    exact ⟨_, _, rfl, fun d => by simp⟩
  · rw [ran, failed]
    exact ⟨_, _, rfl, fun d => by simp [fresh]⟩

end CoverageState

namespace Phase

variable {c : Config.Tests} {w v : World}

/-- The code that the answer to the command of the tests stands for. -/
def testCode : Except PipelineError CommandOutput → Int
  | .ok output => output.exitCode
  | .error _ => testExecutionErrorCode

/-- The rest of the tests, once the data file is cleared. -/
def tested (c : Config.Tests) (ctx : JobContext) (s : CoverageState) :
    Program (PhaseOutcome × Findings) :=
  match ctx.invocation "test suite" c.template with
  | .error e => .done (.failed e.message, { ctx.findings with coverage := s })
  | .ok i => .ask (.command (i.withTimeout c.timeoutSecs)) fun reply =>
    s.collect.bind fun r =>
      .done (.completed (testCode reply), { ctx.findings with coverage := r.2 })

/-- The tests hand over their command at once, and what they leave is what is collected after it. -/
theorem tested_spec (host : Host) (c : Config.Tests) (ctx : JobContext) {s : CoverageState}
    (fresh : s.dataset = none) (v : World) :
    (∀ i u, (.command i, u) ∈ (tested c ctx s).encounters host v → u = v) ∧
    ∀ r d, ((tested c ctx s).run host v).1 = some r →
      (r.2.coverage.dataset = some d ↔
        Collected host s.dataFile ((tested c ctx s).encounters host v) d) := by
  rw [tested]
  cases made : ctx.invocation "test suite" c.template with
  | error e =>
    refine ⟨fun i u mem => (List.not_mem_nil mem).elim, fun r d ends => ?_⟩
    cases ends
    have none : ¬Collected host s.dataFile [] d :=
      not_collected_of_isAside fun e mem => (List.not_mem_nil mem).elim
    exact ⟨fun eq => by simp [fresh] at eq, fun collected => (none collected).elim⟩
  | ok i =>
    have label : i.label = "test suite" := JobContext.label_of_invocation made
    have test : (i.withTimeout c.timeoutSecs).IsTest := label
    dsimp only
    generalize i.withTimeout c.timeoutSecs = i at test
    rw [Program.encounters, Program.run]
    rcases answered : host.answer v (.command i) with ⟨_ | reply, u⟩
    · refine ⟨fun j u mem => ?_, fun r d ends => by cases ends⟩
      exact congrArg Prod.snd (List.mem_singleton.mp mem)
    · have met : (s.collect.bind fun r => Program.done (PhaseOutcome.completed (testCode reply),
          { ctx.findings with coverage := r.2 })).encounters host u =
          [(.readFile s.dataFile, u)] := by
        rw [Program.encounters_bind, CoverageState.encounters_collect]
        split <;> rfl
      obtain ⟨result, s', collected, dataset⟩ := s.run_collect host fresh u
      rcases ran : s.collect.run host u with ⟨o, u'⟩
      obtain rfl : o = some (result, s') := by
        rw [ran] at collected
        exact collected
      dsimp only
      rw [met, Program.run_bind, ran]
      refine ⟨fun j u' mem => ?_, fun r d ends => ?_⟩
      · rcases List.mem_cons.mp mem with eq | mem
        · exact congrArg Prod.snd eq
        · cases List.mem_singleton.mp mem
      · cases ends
        rw [dataset, collected_pair_iff test, answered]

theorem testRun_eq (c : Config.Tests) (ctx : JobContext) :
    (Phase.testRun c).run ctx = ctx.findings.coverage.erase.bind fun r =>
      match r with
      | (.error e, s) => .done (.failed ("coverage erase failed: " ++ e.message),
          { ctx.findings with coverage := s })
      | (.ok (), s) => tested c ctx s :=
  rfl

/-- When the command of the tests is handed over, nothing is at the data file's place, and what the
tests leave is what was collected after it. -/
theorem testRun_spec (host : Host) (c : Config.Tests) (ctx : JobContext)
    (fresh : ctx.findings.coverage.dataset = none) (w : World) :
    Unseen host ctx.findings.coverage.dataFile (((Phase.testRun c).run ctx).encounters host w) ∧
    ∀ r d, (((Phase.testRun c).run ctx).run host w).1 = some r →
      (r.2.coverage.dataset = some d ↔ Collected host ctx.findings.coverage.dataFile
        (((Phase.testRun c).run ctx).encounters host w) d) := by
  have erasure : ∀ e ∈ [(Request.removeFile ctx.findings.coverage.dataFile, w)],
      e.1.IsAside := by
    intro e mem i eq
    rw [List.mem_singleton.mp mem] at eq
    cases eq
  rw [testRun_eq, Program.encounters_bind, CoverageState.encounters_erase, Program.run_bind]
  by_cases cleared : ∃ t, Cleared host.cwd ctx.findings.coverage.dataFile w.files t
  · obtain ⟨t, cleared⟩ := cleared
    let erased : CoverageState := { ctx.findings.coverage with erased := true, dataset := none }
    obtain ⟨met, left⟩ := tested_spec host c ctx (s := erased) rfl { w with files := t }
    rw [CoverageState.run_erase_of_cleared cleared]
    refine ⟨(unseen_of_isAside erasure).append fun i v mem _ => ?_, fun r d ends => ?_⟩
    · rw [met i v mem]
      exact cleared.isPresent_eq_false
    · rw [collected_append_iff, left r d ends]
      exact ⟨.inr, fun either => either.resolve_left (not_collected_of_isAside erasure)⟩
  · cases removed : w.files.removeFile host.cwd ctx.findings.coverage.dataFile with
    | ok t => exact (cleared ⟨t, .inl removed⟩).elim
    | error fault =>
      have other : fault ≠ .notFound := by
        rintro rfl
        exact cleared ⟨_, .inr ⟨removed, rfl⟩⟩
      rw [CoverageState.run_erase_of_error removed other]
      simp only [Program.encounters, List.append_nil]
      refine ⟨unseen_of_isAside erasure, fun r d ends => ?_⟩
      cases ends
      exact ⟨fun eq => by simp [fresh] at eq,
        fun collected => (not_collected_of_isAside erasure collected).elim⟩

end Phase

namespace JobPipeline

variable {h : History} {f : Findings} {phases : List Phase}

theorem runPhases_aside (stamp : Stamp) (h : History) (f : Findings)
    (aside : ∀ phase ∈ phases, phase.IsAside host ctx) (w : World) :
    (∀ e ∈ (runPhases stamp (h.progress ctx stamp f) phases).encounters host w, e.1.IsAside) ∧
    ∀ q, ((runPhases stamp (h.progress ctx stamp f) phases).run host w).1 = some q →
      ∃ (h' : History) (f' : Findings), q = History.progress (h ++ h') ctx stamp f' ∧
        f'.coverage = f.coverage :=
  ⟨(runPhases_asks fun phase mem => (aside phase mem).asks).encounters w,
    fun _ ends => (runPhases_keeps aside).run_ends ends⟩

/-- What the tests and the phases behind them met and left. -/
theorem runPhases_from_tests (stamp : Stamp) (h : History) (c : Config.Tests) {after : List Phase}
    (aside : ∀ phase ∈ after, phase.IsAside host ctx) (hp : f.coverage.dataFile = p)
    (fresh : f.coverage.dataset = none) (w : World) :
    let rest := runPhases stamp (h.progress ctx stamp f) (.testRun c :: after)
    Unseen host p (rest.encounters host w) ∧
    ∀ q d, (rest.run host w).1 = some q →
      (q.context.findings.coverage.dataset = some d ↔
        Collected host p (rest.encounters host w) d) := by
  intro rest
  cases hk : h.admits (Phase.testRun c).kind with
  | false =>
    obtain ⟨met, left⟩ :=
      runPhases_aside stamp (h ++ [((Phase.testRun c).kind, none)]) f aside w
    rw [show rest = _ from runPhases_of_not_admits hk]
    refine ⟨unseen_of_isAside met, fun q d ends => ?_⟩
    obtain ⟨h', f', rfl, kept⟩ := left q ends
    have dataset : f'.coverage.dataset = none := by rw [kept, fresh]
    constructor
    · intro found
      cases dataset.symm.trans found
    · exact fun collected => (not_collected_of_isAside met collected).elim
  | true =>
    obtain ⟨unseen, collects⟩ := Phase.testRun_spec host c (h.contextOf ctx f) fresh w
    rw [show rest = _ from runPhases_of_admits hk, Program.encounters_bind, Program.run_bind]
    subst hp
    rcases ran : ((Phase.testRun c).run (h.contextOf ctx f)).run host w with ⟨_ | r, u⟩
    · refine ⟨unseen.append fun i v mem => (List.not_mem_nil mem).elim, ?_⟩
      exact fun q d ends => by cases ends
    · obtain ⟨met, left⟩ :=
        runPhases_aside stamp (h ++ [((Phase.testRun c).kind, some r.1)]) r.2 aside u
      refine ⟨unseen.append (unseen_of_isAside met), fun q d ends => ?_⟩
      obtain ⟨h', f', rfl, kept⟩ := left q ends
      have dataset : f'.coverage.dataset = r.2.coverage.dataset := by rw [kept]
      have own : r.2.coverage.dataset = some d ↔ Collected host f.coverage.dataFile
          (((Phase.testRun c).run (h.contextOf ctx f)).encounters host w) d :=
        collects r d (by rw [ran])
      rw [collected_append_iff, ← own]
      constructor
      · exact fun found => .inl (dataset.symm.trans found)
      · rintro (found | collected)
        · exact dataset.trans found
        · exact (not_collected_of_isAside met collected).elim

/-- In a pipeline with one phase of tests among phases that have nothing to do with them, the tests
find nothing at the data file's place, and the dataset at the end is the one they left. -/
theorem runPhases_tests (stamp : Stamp) (h : History) (c : Config.Tests) {before after : List Phase}
    (beforeAside : ∀ phase ∈ before, phase.IsAside host ctx)
    (afterAside : ∀ phase ∈ after, phase.IsAside host ctx) (hp : f.coverage.dataFile = p)
    (fresh : f.coverage.dataset = none) (w : World) :
    let job := runPhases stamp (h.progress ctx stamp f) (before ++ .testRun c :: after)
    Unseen host p (job.encounters host w) ∧
    ∀ q d, (job.run host w).1 = some q →
      (q.context.findings.coverage.dataset = some d ↔
        Collected host p (job.encounters host w) d) := by
  intro job
  obtain ⟨met, left⟩ := runPhases_aside stamp h f beforeAside w
  have eq : job = _ := runPhases_append _ _ _
  rw [eq, Program.encounters_bind, Program.run_bind]
  rcases ran : (runPhases stamp (h.progress ctx stamp f) before).run host w with ⟨_ | q, u⟩
  · refine ⟨(unseen_of_isAside met).append fun i v mem => (List.not_mem_nil mem).elim, ?_⟩
    exact fun q d ends => by cases ends
  · obtain ⟨h', f', rfl, kept⟩ := left q (by rw [ran])
    obtain ⟨unseen, collects⟩ :=
      runPhases_from_tests stamp (h ++ h') c afterAside (kept ▸ hp) (kept ▸ fresh) u
    refine ⟨(unseen_of_isAside met).append unseen, fun q d ends => ?_⟩
    rw [collected_append_iff, collects q d ends]
    exact ⟨.inr, fun either => either.resolve_left (not_collected_of_isAside met)⟩

/-! ## The standard pipeline -/

section
variable (ctx) (c : Config) (stamp : Stamp) (place : ctx.findings.coverage.dataFile = p)
  (opened : ∀ env, (ctx.reporter.opened ctx.reporterId ⟨ctx.job.id, ctx.workdir, env⟩).Asks host
    fun r => r.Spares host p ∧ r.IsAside)
  (closed : ∀ env code, (ctx.reporter.closed ctx.reporterId ⟨ctx.job.id, ctx.workdir, env⟩
    code).Asks host fun r => r.Spares host p ∧ r.IsAside)
include opened

theorem beforeTests_isAside :
    ∀ phase ∈ [Phase.install c.dependencies c.installers, .openSession],
      phase.IsAside host ctx := by
  refine List.forall_mem_cons.mpr ⟨Phase.install_isAside _ _, List.forall_mem_singleton.mpr ?_⟩
  exact Phase.openSession_isAside fun env => (opened env).mono fun _ both => both.2

theorem beforeTests_spare
    (command : ∀ i : Invocation, ¬i.IsTest → ¬i.IsExport → (Request.command i).Spares host p) :
    ∀ phase ∈ [Phase.install c.dependencies c.installers, .openSession],
      ∀ (h : History) (f : Findings),
        (phase.run (h.contextOf ctx f)).Asks host (Request.Spares host p) := by
  refine List.forall_mem_cons.mpr ⟨fun h f => ?_, List.forall_mem_singleton.mpr fun h f => ?_⟩
  · have asks := Phase.install_obeys (h.contextOf ctx f) c.dependencies c.installers (C := True)
      fun i _ install => command i install.not_isTest install.not_isExport
    exact asks.asks
  · exact Phase.openSession_asks (h.contextOf ctx f) (Request.spares_note _)
      ((opened _).mono fun _ both => both.1)

include closed place

/-- What was in the data file makes no difference to the journal of a job. -/
theorem standard_phases_runsAlike (goes : host.GoesByFiles)
    (command : ∀ i : Invocation, ¬i.IsTest → ¬i.IsExport → (Request.command i).Spares host p) :
    (runPhases stamp (History.progress [] ctx stamp ctx.findings) (standard c).phases).RunsAlike
      host (World.AlikeBut host.cwd p) fun _ w v => w.journal = v.journal := by
  have closer : Phase.closeSession.IsAside host ctx :=
    Phase.closeSession_isAside fun env code => (closed env code).mono fun _ both => both.2
  have spares (h : History) (f : Findings) :
      (Phase.closeSession.run (h.contextOf ctx f)).Asks host (Request.Spares host p) :=
    Phase.closeSession_asks (h.contextOf ctx f) (Request.spares_note _) (Request.spares_note _)
      ((closed _ _).mono fun _ both => both.1)
  rw [show (standard c).phases = [Phase.install c.dependencies c.installers, .openSession] ++
    [.testRun c.tests, .closeSession, .exportCoverage c.exports] from rfl, runPhases_append]
  refine (runPhases_runsAlike stamp [] ctx.findings (beforeTests_isAside ctx c opened)
    (beforeTests_spare ctx c opened command)).bind (fun q => ?_) fun w v after => after.1.journal
  rintro w v ⟨alike, progress⟩
  obtain ⟨h, f, rfl, kept⟩ := progress q rfl
  exact runPhases_runsAlike_from_tests goes c.tests closer spares rfl _
    ((congrArg (·.dataFile) kept).trans place) w v alike

/-- The tests of a job find no data, and its dataset is what they left. -/
theorem standard_phases_collect (fresh : ctx.findings.coverage.dataset = none) (w : World) :
    let job := runPhases stamp (History.progress [] ctx stamp ctx.findings) (standard c).phases
    Unseen host p (job.encounters host w) ∧
    ∀ q d, (job.run host w).1 = some q →
      (q.context.findings.coverage.dataset = some d ↔
        Collected host p (job.encounters host w) d) := by
  have after : ∀ phase ∈ [Phase.closeSession, .exportCoverage c.exports],
      phase.IsAside host ctx := by
    refine List.forall_mem_cons.mpr ⟨?_, List.forall_mem_singleton.mpr ?_⟩
    · exact Phase.closeSession_isAside fun env code => (closed env code).mono fun _ both => both.2
    · exact Phase.exportCoverage_isAside _
  exact runPhases_tests stamp [] c.tests (beforeTests_isAside ctx c opened) after place fresh w

end

end JobPipeline
end CoverageMatrix
