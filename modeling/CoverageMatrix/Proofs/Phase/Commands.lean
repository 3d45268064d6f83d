import CoverageMatrix.Proofs.Job.Coverage
import CoverageMatrix.Proofs.Phase.Standard

/-!
# What phases announce and what they run

A phase says beforehand which command lines it will run. Here is what it does run: its lines in
order as far as it gets, and all of them unless it fails (`Program.RunsLines`). Also what has to be
in the exchanges of a phase that opened a session, or that ran the tests and got a code of zero.
-/
namespace CoverageMatrix

/-! ## Commands among exchanges -/

/-- The commands among notes. -/
def commandsOf (notes : List Note) : List Invocation :=
  notes.filterMap fun
    | .command i => some i
    | _ => none

@[simp] theorem commandsOf_append (notes more : List Note) :
    commandsOf (notes ++ more) = commandsOf notes ++ commandsOf more :=
  List.filterMap_append

theorem World.invocations_eq (w : World) : w.invocations = commandsOf w.journal := rfl

/-- The lines of the commands that a request hands over: one, or none. -/
def Request.lines (r : Request) : List String :=
  (commandsOf r.notes).map (·.line)

/-- A request that hands over no command. -/
def Request.IsIdle (r : Request) : Prop :=
  commandsOf r.notes = []

theorem Request.IsIdle.lines_eq_nil {r : Request} (idle : r.IsIdle) : r.lines = [] := by
  rw [lines, idle, List.map_nil]

theorem Request.isIdle_of_notes_eq_nil {r : Request} (h : r.notes = []) : r.IsIdle := by
  rw [IsIdle, h]
  rfl

/-- Every command that a request hands over has a property. -/
def Request.Hands (P : Invocation → Prop) (r : Request) : Prop :=
  ∀ i ∈ commandsOf r.notes, P i

theorem Request.hands_command {P : Invocation → Prop} {i : Invocation} (h : P i) :
    (Request.command i).Hands P :=
  List.forall_mem_singleton.mpr h

theorem Request.IsIdle.hands {r : Request} (idle : r.IsIdle) (P : Invocation → Prop) :
    r.Hands P := by
  rw [Hands, idle]
  exact List.forall_mem_nil _

theorem mem_commandsOf_notes {t : Transcript} {i : Invocation} :
    i ∈ commandsOf t.notes ↔ ∃ e ∈ t, i ∈ commandsOf e.request.notes := by
  rw [commandsOf, Transcript.notes, List.filterMap_flatMap]
  exact List.mem_flatMap

theorem Program.Obeys.hands {α : Type} {p : Program α} {P : Invocation → Prop} {C : Prop}
    {Q : α → Prop} {t : Transcript} {o : Option α} (hands : p.Obeys (Request.Hands P) C Q)
    (run : p.Follows t o) : ∀ i ∈ commandsOf t.notes, P i := by
  intro i mem
  obtain ⟨e, among, handed⟩ := mem_commandsOf_notes.mp mem
  exact run.asks hands e among i handed

namespace Transcript

/-- The command lines that a program ran, in order. -/
def lines (t : Transcript) : List String :=
  (commandsOf t.notes).map (·.line)

@[simp] theorem lines_nil : lines [] = [] := rfl

@[simp] theorem lines_cons (e : Exchange) (t : Transcript) :
    lines (e :: t) = e.request.lines ++ t.lines := by
  simp [lines, Request.lines]

@[simp] theorem lines_append (t u : Transcript) : lines (t ++ u) = t.lines ++ u.lines := by
  simp [lines]

end Transcript

/-! ## Programs that run given lines -/

namespace Program

variable {α β : Type} {good : α → Prop} {lines : List String} {p : Program α}

/-- Whatever a program is answered, it runs the given lines in order as far as it gets, and all of
them if it ends in a good value. -/
def RunsLines (good : α → Prop) : List String → Program α → Prop
  | lines, done a => good a → lines = []
  | _, crash => True
  | lines, ask r next => ∃ rest, lines = r.lines ++ rest ∧ ∀ x, (next x).RunsLines good rest

theorem Follows.lines_prefix {t : Transcript} {o : Option α} (h : p.Follows t o)
    (runs : p.RunsLines good lines) : t.lines <+: lines := by
  induction h generalizing lines with
  | done | crash => exact List.nil_prefix
  | answered _ ih =>
    obtain ⟨rest, rfl, next⟩ := runs
    rw [Transcript.lines_cons]
    exact (List.prefix_append_right_inj _).mpr (ih (next _))
  | unanswered =>
    obtain ⟨rest, rfl, -⟩ := runs
    rw [Transcript.lines_cons, Transcript.lines_nil, List.append_nil]
    exact List.prefix_append _ _

theorem Follows.lines_eq {t : Transcript} {a : α} (h : p.Follows t (some a))
    (runs : p.RunsLines good lines) (well : good a) : t.lines = lines := by
  generalize ho : some a = o at h
  induction h generalizing lines with
  | done b =>
    cases ho
    exact (runs well).symm
  | crash | unanswered => cases ho
  | answered _ ih =>
    obtain ⟨rest, rfl, next⟩ := runs
    rw [Transcript.lines_cons, ih (next _) ho]

theorem Obeys.runsLines {C : Prop} {Q : α → Prop} (h : p.Obeys Request.IsIdle C Q) :
    p.RunsLines good [] := by
  induction p with
  | done a => exact fun _ => rfl
  | crash => trivial
  | ask r next ih => exact ⟨[], by rw [h.1.lines_eq_nil]; rfl, fun x => ih x (h.2 x)⟩

theorem runsLines_command {i : Invocation} {line : String}
    {next : (Request.command i).Answer → Program α} (h : i.line = line)
    (rest : ∀ reply, (next reply).RunsLines good []) :
    (ask (.command i) next).RunsLines good [line] :=
  ⟨[], by rw [← h]; rfl, rest⟩

theorem RunsLines.bind {well : β → Prop} {f : α → Program β} {more : List String}
    (h : p.RunsLines good lines) (next : ∀ a, good a → (f a).RunsLines well more)
    (stops : ∀ a, ¬good a → ∀ rest, (f a).RunsLines well rest) :
    (p.bind f).RunsLines well (lines ++ more) := by
  induction p generalizing lines with
  | done a =>
    by_cases ended : good a
    · rw [h ended]
      exact next a ended
    · exact stops a ended _
  | crash => trivial
  | ask r _ ih =>
    obtain ⟨rest, rfl, after⟩ := h
    exact ⟨rest ++ more, List.append_assoc .., fun x => ih x (after x)⟩

theorem RunsLines.and_then {well : β → Prop} {f : α → Program β} (h : p.RunsLines good lines)
    (next : ∀ a, good a → (f a).RunsLines well [])
    (stops : ∀ a, ¬good a → ∀ rest, (f a).RunsLines well rest) :
    (p.bind f).RunsLines well lines := by
  have whole := h.bind next stops
  rwa [List.append_nil] at whole

end Program

/-! ## Phases -/

/-- A phase was carried out: it passed, or completed with a code. -/
def PhaseOutcome.isCarriedOut : PhaseOutcome → Bool
  | failed _ => false
  | _ => true

variable {ctx : JobContext}

theorem JobContext.line_of_invocation {label : String} {template : List String} {i : Invocation}
    (h : ctx.invocation label template = .ok i) :
    i.line = String.intercalate " " (ctx.job.render template) := by
  rw [(eq_of_invocation h).1]
  rfl

/-- A phase runs the given lines in order as far as it gets, and all of them if it is carried out. -/
def Phase.RunsLines (phase : Phase) (ctx : JobContext) (lines : List String) : Prop :=
  (phase.run ctx).RunsLines (fun r => r.1.isCarriedOut = true) lines

/-! ### Installing -/

namespace Install

variable (c : Config.Installers)

theorem runStep_runsLines (label : String) (argv : CommandTemplate) :
    (runStep ctx label argv).RunsLines (· = .ok ()) [line ctx.job argv] := by
  unfold runStep
  cases made : ctx.invocation label argv with
  | error e => exact fun ended => by cases ended
  | ok i =>
    refine Program.runsLines_command (JobContext.line_of_invocation made) fun reply => ?_
    rcases reply with e | output
    · exact fun ended => by cases ended
    · simp only [Program.bind]
      split
      · exact fun _ => rfl
      · exact fun ended => by cases ended

theorem runRefresh_runsLines (refreshed : Bool) (action : InstallAction) :
    (runRefresh ctx c refreshed action).RunsLines (· = .ok ())
      (describeRefresh ctx.job c refreshed action) := by
  unfold runRefresh describeRefresh
  split
  · cases c.refresh? with
    | none => exact fun _ => rfl
    | some argv => exact runStep_runsLines _ argv
  · exact fun _ => rfl

theorem runAction_runsLines (position : Nat) (action : InstallAction) :
    (runAction ctx c position action).RunsLines (· = .ok ()) [describeAction ctx.job c action] := by
  unfold runAction describeAction
  cases c.argvOf action with
  | error e => exact fun ended => by cases ended
  | ok argv => exact runStep_runsLines _ argv

/-- The loop that runs the actions runs the lines of the one that describes them. -/
theorem runActions_runsLines (refreshed : Bool) (position : Nat) (actions : List InstallAction) :
    (runActions ctx c refreshed position actions).RunsLines (·.isCarriedOut = true)
      (describeActions ctx.job c refreshed actions) := by
  induction actions generalizing refreshed position with
  | nil => exact fun _ => rfl
  | cons action rest ih =>
    refine (runRefresh_runsLines c refreshed action).bind (fun reply ended => ?_)
      fun reply failed others => ?_
    · cases ended
      refine (runAction_runsLines c position action).bind (fun reply ended => ?_)
        fun reply failed others => ?_
      · cases ended
        exact ih _ _
      · rcases reply with reason | ⟨⟨⟩⟩
        · exact fun ended => by cases ended
        · exact absurd rfl failed
    · rcases reply with reason | ⟨⟨⟩⟩
      · exact fun ended => by cases ended
      · exact absurd rfl failed

end Install

namespace Phase

theorem install_runsLines (actions : List InstallAction) (c : Config.Installers) :
    (install actions c).RunsLines ctx ((install actions c).describe ctx) := by
  refine (Install.runActions_runsLines c false 1 actions).and_then (fun outcome carried => ?_)
    fun o failed rest => ?_
  · exact fun _ => rfl
  · exact fun ended => absurd ended failed

/-! ### Sessions -/

theorem openSession_runsLines
    (opened : (ctx.reporter.opened ctx.reporterId ctx.scope).Obeys Request.IsIdle True
      fun _ => True) : openSession.RunsLines ctx [] := by
  have call : (Request.note (.session (.opening ctx.reporterId ctx.scope))).IsIdle := rfl
  exact (openSession_obeys call opened).runsLines

theorem closeSession_runsLines
    (closed : (ctx.reporter.closed ctx.reporterId ctx.scope ctx.closingCode).Obeys Request.IsIdle
      True fun _ => True) : closeSession.RunsLines ctx [] := by
  have begins : (Request.note (.closing ctx.job.id)).IsIdle := rfl
  have call : (Request.note (.session
      (.closing ctx.reporterId ctx.scope ctx.closingCode))).IsIdle := rfl
  exact (closeSession_obeys begins call closed).runsLines

end Phase

/-- These are the exchanges of a job in which the reporter opened its session. -/
def JobContext.Opened (ctx : JobContext) (t : Transcript) : Prop :=
  (ctx.reporter.openSession ctx.reporterId ctx.scope).Follows t (some (.ok ()))

theorem Phase.opened_of_openSession {t : Transcript} {r : PhaseOutcome × Findings}
    (run : (openSession.run ctx).Follows t (some r)) (carried : r.1.isCarriedOut = true) :
    ctx.Opened t := by
  rcases Program.follows_bind_iff.mp run with ⟨t₁, t₂, reply, rfl, call, ends⟩ | ⟨failed, -⟩
  · rcases reply with e | ⟨⟨⟩⟩
    · obtain ⟨-, ended⟩ := Program.follows_done_iff.mp ends
      cases ended
      cases carried
    · obtain ⟨rfl, -⟩ := Program.follows_done_iff.mp ends
      rwa [List.append_nil]
  · cases failed

/-! ### Tests -/

/-- In this exchange the coverage data at a path was erased. That there was none is as good. -/
def Exchange.Erases (file : Path) (e : Exchange) : Prop :=
  e = ⟨.removeFile file, some (.ok ())⟩ ∨ e = ⟨.removeFile file, some (.error Files.Fault.notFound)⟩

namespace Phase

variable {c : Config.Tests}

theorem tested_runsLines (s : CoverageState) :
    (tested c ctx s).RunsLines (fun r => r.1.isCarriedOut = true)
      [String.intercalate " " (ctx.job.render c.template)] := by
  rw [tested]
  cases made : ctx.invocation "test suite" c.template with
  | error e => exact fun ended => by cases ended
  | ok i =>
    have line : (i.withTimeout c.timeoutSecs).line = i.line := rfl
    refine Program.runsLines_command (line.trans (JobContext.line_of_invocation made)) fun reply => ?_
    have collect : s.collect.RunsLines (fun _ => True) [] :=
      (collect_obeys s (C := True) (Request.isIdle_of_notes_eq_nil rfl)).runsLines
    exact collect.and_then (fun _ _ _ => rfl) fun _ never => absurd trivial never

theorem testRun_runsLines (c : Config.Tests) :
    (testRun c).RunsLines ctx [String.intercalate " " (ctx.job.render c.template)] := by
  have erase : ctx.findings.coverage.erase.RunsLines (fun r => r.1 = .ok ()) [] :=
    (erase_obeys _ (C := True) (Request.isIdle_of_notes_eq_nil rfl)).runsLines
  rw [RunsLines, testRun_eq]
  refine erase.bind (fun r erased => ?_) fun r failed rest => ?_
  · obtain ⟨_, s⟩ := r
    cases erased
    exact tested_runsLines s
  · obtain ⟨e | ⟨⟨⟩⟩, s⟩ := r
    · exact fun ended => by cases ended
    · exact absurd rfl failed

/-- The tests begin with the erasure, and hand over nothing if it fails. -/
theorem follows_testRun {t : Transcript} {o : Option (PhaseOutcome × Findings)}
    (run : ((testRun c).run ctx).Follows t o) :
    ∃ e u, t = e :: u ∧ e.request.IsIdle ∧
      ((e.Erases ctx.findings.coverage.dataFile ∧ ∃ s, (tested c ctx s).Follows u o) ∨
        u = [] ∧ ∃ reason g, o = some (.failed reason, g)) := by
  rw [testRun_eq] at run
  cases run with
  | @answered _ _ reply u _ rest =>
    refine ⟨_, _, rfl, rfl, ?_⟩
    rcases reply with fault | ⟨⟨⟩⟩
    · by_cases missing : fault = .notFound
      · subst missing
        exact .inl ⟨.inr rfl, _, rest⟩
      · have stops : (Program.done (PhaseOutcome.failed ("coverage erase failed: " ++
            (PipelineError.io fault).message), ctx.findings)).Follows u o := by
          simp only [Program.bind] at rest
          split at rest
          · next eq => cases eq
          · next eq => exact absurd (Except.error.inj eq) missing
          · next eq =>
            cases eq
            exact rest
        obtain ⟨rfl, rfl⟩ := Program.follows_done_iff.mp stops
        exact .inr ⟨rfl, _, _, rfl⟩
    · exact .inl ⟨.inl rfl, _, rest⟩

theorem erases_of_lines {t : Transcript} {o : Option (PhaseOutcome × Findings)}
    (run : ((testRun c).run ctx).Follows t o) (ran : t.lines ≠ []) :
    ∃ e u, t = e :: u ∧ e.Erases ctx.findings.coverage.dataFile := by
  obtain ⟨e, u, rfl, idle, ⟨erased, -⟩ | ⟨rfl, -⟩⟩ := follows_testRun run
  · exact ⟨e, u, rfl, erased⟩
  · rw [Transcript.lines_cons, idle.lines_eq_nil] at ran
    exact absurd rfl ran

theorem testCode_eq_zero {reply : Except PipelineError CommandOutput} (h : testCode reply = 0) :
    ∃ output, reply = .ok output ∧ output.exitCode = 0 := by
  cases reply with
  | error e => cases h
  | ok output => exact ⟨output, rfl, h⟩

/-- The tests either complete with the code of the answer to their command, and hand over nothing
else, or fail and hand over nothing at all. -/
theorem testRun_ends {t : Transcript} {o : PhaseOutcome} {g : Findings}
    (run : ((testRun c).run ctx).Follows t (some (o, g))) :
    (∃ e i reply u, t = e :: ⟨.command (i.withTimeout c.timeoutSecs), some reply⟩ :: u ∧
      ctx.invocation "test suite" c.template = .ok i ∧ o = .completed (testCode reply) ∧
      e.request.IsIdle ∧ ∀ x ∈ u, x.request.IsIdle) ∨
    ∃ e reason, t = [e] ∧ o = .failed reason ∧ e.request.IsIdle := by
  obtain ⟨e, u, rfl, idle, ⟨-, s, rest⟩ | ⟨rfl, reason, g, failed⟩⟩ := follows_testRun run
  · rw [tested] at rest
    cases made : ctx.invocation "test suite" c.template with
    | error error =>
      rw [made] at rest
      obtain ⟨rfl, ended⟩ := Program.follows_done_iff.mp rest
      cases ended
      exact .inr ⟨e, _, rfl, rfl, idle⟩
    | ok i =>
      rw [made] at rest
      cases rest with
      | @answered _ _ reply u _ rest =>
        rcases Program.follows_bind_iff.mp rest with ⟨u₁, u₂, r, rfl, collects, ends⟩ | ⟨failed, -⟩
        · obtain ⟨rfl, ended⟩ := Program.follows_done_iff.mp ends
          cases ended
          have silent : s.collect.Obeys Request.IsIdle True fun r => r.2.dataFile = s.dataFile :=
            collect_obeys s (Request.isIdle_of_notes_eq_nil rfl)
          rw [List.append_nil]
          exact .inl ⟨e, i, reply, u₁, rfl, rfl, rfl, idle, collects.asks silent⟩
        · cases failed
  · cases failed
    exact .inr ⟨e, reason, rfl, rfl, idle⟩

/-- If the tests complete with zero, their command was answered with zero. -/
theorem exists_command_of_testRun {t : Transcript} {g : Findings}
    (run : ((testRun c).run ctx).Follows t (some (.completed 0, g))) :
    ∃ i output, ⟨.command i, some (.ok output)⟩ ∈ t ∧
      i.line = String.intercalate " " (ctx.job.render c.template) ∧ output.exitCode = 0 := by
  obtain ⟨e, i, reply, u, rfl, made, code, -⟩ | ⟨e, reason, -, failed, -⟩ := testRun_ends run
  · obtain ⟨output, rfl, zero⟩ := testCode_eq_zero (PhaseOutcome.completed.inj code).symm
    have line : (i.withTimeout c.timeoutSecs).line = i.line := rfl
    refine ⟨_, output, List.mem_cons_of_mem _ List.mem_cons_self, ?_, zero⟩
    rw [line, JobContext.line_of_invocation made]
  · cases failed

end Phase

/-! ### Export -/

theorem Phase.exportCoverage_runsLines (c : Config.Export) :
    (exportCoverage c).RunsLines ctx [String.intercalate " " (ctx.job.render c.command)] := by
  rw [RunsLines, exportCoverage]
  dsimp only
  cases made : ctx.invocation "coverage export" c.command with
  | error e => exact fun ended => by cases ended
  | ok i =>
    refine Program.runsLines_command (JobContext.line_of_invocation made) fun reply => ?_
    rcases reply with e | output
    · exact fun ended => by cases ended
    · simp only [Program.bind]
      split
      · refine ⟨[], rfl, fun isPresent => ?_⟩
        cases isPresent <;> exact fun _ => rfl
      · exact fun ended => by cases ended

end CoverageMatrix
