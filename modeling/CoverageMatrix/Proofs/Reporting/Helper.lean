import CoverageMatrix.Proofs.Program.Closings
import CoverageMatrix.Reporting.Helper

/-!
# What the helper keeps to

The helper breaks down only when the command runner does, and it makes no calls of its own to the
reporting service.
-/
namespace CoverageMatrix.Helper

variable (h : Helper) (id : ReporterId) (scope : SessionScope)

/-- What is asked to put a copy in place leaves no notes: no command is run for it. -/
theorem fetch_silent (target : Path) :
    (h.fetch target).Obeys (fun r => r.notes = []) False fun _ => True := by
  unfold fetch
  split
  · refine ⟨rfl, fun reply => ?_⟩
    rcases reply with e | content
    · trivial
    · refine ⟨rfl, fun reply => ?_⟩
      rcases reply with fault | ⟨⟨⟩⟩ <;> trivial
  · refine ⟨rfl, fun reply => ?_⟩
    rcases reply with fault | ⟨⟨⟩⟩ <;> trivial

theorem acquire_silent (target : Path) :
    (h.acquire target).Obeys (fun r => r.notes = []) False fun _ => True := by
  refine (h.fetch_silent target).bind fun reply _ => ?_
  rcases reply with e | ⟨⟨⟩⟩
  · trivial
  · refine ⟨rfl, fun reply => ?_⟩
    rcases reply with fault | ⟨⟨⟩⟩ <;> trivial

theorem acquire_sound (target : Path) : (h.acquire target).IsSound fun _ => True :=
  (h.acquire_silent target).mono (fun _ => Request.isQuiet_of_notes_eq_nil) id fun _ => id

/-- The command that runs a job's copy. -/
theorem eq_of_invocation {args : List String} {i : Invocation}
    (made : h.invocation args id scope = .ok i) :
    i = ⟨"reporter " ++ args.headD "", (h.locationFor scope).text, args,
      scope.env.insert h.idEnv id.expose, scope.workdir, h.timeoutSecs⟩ := by
  rw [invocation, Invocation.ofArgv] at made
  split at made
  · cases made
  · cases made
    simp only [Invocation.withEnv, Invocation.withVar, Invocation.withTimeout,
      EnvVars.empty_overlay]

theorem invoke_asks (args : List String) :
    (h.invoke args id scope).Obeys
      (fun r => ∃ i, r = .command i ∧ h.invocation args id scope = .ok i) False fun _ => True := by
  unfold invoke
  split
  · trivial
  · next i made =>
    refine ⟨⟨i, rfl, made⟩, fun reply => ?_⟩
    rcases reply with e | output
    · trivial
    · simp only [Program.bind]
      split <;> trivial

theorem invoke_sound (args : List String) : (h.invoke args id scope).IsSound fun _ => True := by
  have asks := h.invoke_asks id scope args
  generalize h.invoke args id scope = p at asks ⊢
  refine asks.mono (fun r asked => ?_) False.elim fun _ _ => trivial
  obtain ⟨i, rfl, -⟩ := asked
  exact Request.isQuiet_command i

/-- How a call that opens a session goes on after the attempt to put the copy in place. -/
def afterAcquiring : Except PipelineError Unit → Program (Except PipelineError Unit)
  | .error e => .done (.error e)
  | .ok () => .ask (.note (.acquired scope.jobId)) fun _ => h.invoke ["before-build"] id scope

theorem openSession_eq : h.openSession id scope =
    (h.acquire (h.locationFor scope)).bind (h.afterAcquiring id scope) := by
  rw [openSession, Program.bind_eq]
  refine congrArg (Program.bind _) (funext fun reply => ?_)
  rcases reply with e | ⟨⟨⟩⟩ <;> rfl

/-- How a call that closes a session goes on once it is told whether the copy is in place. -/
def afterAsking (code : Int) : Bool → Program (Except PipelineError Unit)
  | true => h.invoke ["after-build", "--exit-code", toString code] id scope
  | false => .done (.error (h.neverAcquired scope))

theorem closeSession_eq (code : Int) : h.closeSession id scope code =
    .ask (.wasAcquired scope.jobId) (h.afterAsking id scope code) := by
  refine congrArg (Program.ask _) (funext fun acquired => ?_)
  cases acquired <;> simp [Program.bind, afterAsking]

theorem opened_sound : (h.reporter.opened id scope).IsSound fun _ => True := by
  have eq : h.reporter.opened id scope = _ := h.openSession_eq id scope
  rw [eq]
  refine (h.acquire_sound _).bind fun reply _ => ?_
  rcases reply with e | ⟨⟨⟩⟩
  · trivial
  · have sound := h.invoke_sound id scope ["before-build"]
    rw [afterAcquiring]
    generalize h.invoke ["before-build"] id scope = p at sound ⊢
    exact ⟨Request.isQuiet_note rfl, fun _ => sound⟩

theorem closed_sound (code : Int) : (h.reporter.closed id scope code).IsSound fun _ => True := by
  have eq : h.reporter.closed id scope code = _ := h.closeSession_eq id scope code
  rw [eq]
  refine ⟨Request.isQuiet_of_notes_eq_nil rfl, fun acquired => ?_⟩
  have sound := h.invoke_sound id scope ["after-build", "--exit-code", toString code]
  cases acquired
  · trivial
  · rw [afterAsking]
    generalize h.invoke ["after-build", "--exit-code", toString code] id scope = p at sound ⊢
    exact sound

/-! ## When a closing call breaks down -/

theorem run_invoke_of_error (host : Host) {args : List String} {e : PipelineError}
    (unmade : h.invocation args id scope = .error e) (w : World) :
    (h.invoke args id scope).run host w = (some (.error e), w) := by
  unfold invoke
  rw [unmade]
  rfl

/-- What comes of running a job's copy is what comes of its command. -/
theorem run_invoke_of_ok (host : Host) {args : List String} {i : Invocation}
    (made : h.invocation args id scope = .ok i) (w : World) :
    (h.invoke args id scope).run host w =
      ((host.command i w).outcome.map fun
        | .error e => .error e
        | .ok output =>
          if output.passed then .ok ()
          else .error (.reporter (String.intercalate " " args) output.exitCode),
        { w.noted (.command i) with files := (host.command i w).files }) := by
  have asked : (Program.command i).run host w = host.answer w (.command i) :=
    Program.run_request host (.command i) w
  unfold invoke
  rw [made]
  dsimp only
  rw [Program.bind_eq, Program.run_bind, asked, Host.answer]
  cases (host.command i w).outcome with
  | none => rfl
  | some reply =>
    rcases reply with e | output
    · rfl
    · by_cases passed : output.passed = true <;> simp [passed]

theorem run_invoke_eq_none_iff (host : Host) (args : List String) (w : World) :
    ((h.invoke args id scope).run host w).1 = none ↔
      ∃ i, h.invocation args id scope = .ok i ∧ (host.command i w).outcome = none := by
  cases made : h.invocation args id scope with
  | error e =>
    rw [h.run_invoke_of_error id scope host made]
    simp
  | ok i =>
    rw [h.run_invoke_of_ok id scope host made]
    simp

/-- A call that closes a session breaks down exactly if the job's copy was put in place and the
command runner breaks down when it is to run it. -/
theorem run_closeSession_eq_none_iff (host : Host) (code : Int) (w : World) :
    ((h.reporter.closeSession id scope code).run host w).1 = none ↔
      .acquired scope.jobId ∈ w.journal ∧
        ∃ i, h.invocation ["after-build", "--exit-code", toString code] id scope = .ok i ∧
          (host.command i (w.noted (.session (.closing id scope code)))).outcome = none := by
  have call : (h.reporter.closeSession id scope code).run host w =
      (h.closeSession id scope code).run host (w.noted (.session (.closing id scope code))) := rfl
  have acquired : Note.acquired scope.jobId ∈ (w.noted (.session (.closing id scope code))).journal ↔
      .acquired scope.jobId ∈ w.journal := by
    simp
  rw [call, ← acquired, ← run_invoke_eq_none_iff, closeSession, Program.bind_eq, Program.run_bind]
  generalize w.noted (.session (.closing id scope code)) = v
  have asked : (Program.wasAcquired scope.jobId).run host v =
      (some (v.journal.contains (.acquired scope.jobId)), v) := rfl
  rw [asked]
  by_cases known : Note.acquired scope.jobId ∈ v.journal <;> simp [known]

end CoverageMatrix.Helper
