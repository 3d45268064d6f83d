import CoverageMatrix.Proofs.Phase.Requests
import CoverageMatrix.Proofs.Program.Secrecy
import CoverageMatrix.Reporting.Helper

/-!
# Jobs that keep the identifier to themselves

The phases of the library give the identifier of a project to the reporter alone, and the helper
puts it into one variable of its own commands. So a job runs alike under any identifier
(`JobPipeline.IsDiscreet.run`).
-/
namespace CoverageMatrix

/-- A reporter does the same for every identifier, but for telling it to the reporting service and
for a variable of the helper. -/
structure Reporter.IsDiscreet (r : Reporter) (name : String) : Prop where
  opened : ∀ (id other : ReporterId) (scope : SessionScope),
    (r.opened id scope).AlikeUpTo name Eq (r.opened other scope)
  closed : ∀ (id other : ReporterId) (scope : SessionScope) (code : Int),
    (r.closed id scope code).AlikeUpTo name Eq (r.closed other scope code)

def JobContext.withId (ctx : JobContext) (id : ReporterId) : JobContext :=
  { ctx with reporterId := id }

/-- The phases of a pipeline do the same for every identifier, with a given reporter. -/
def JobPipeline.IsDiscreet (p : JobPipeline) (reporter : Reporter) (name : String) : Prop :=
  ∀ phase ∈ p.phases, ∀ ctx : JobContext, ctx.reporter = reporter → ∀ id,
    (phase.run ctx).AlikeUpTo name Eq (phase.run (ctx.withId id))

variable {name : String} {r : Reporter} {id other : ReporterId} {scope : SessionScope} {code : Int}

/-! ## Reporters -/

namespace Reporter

theorem openSession_alike (h : r.IsDiscreet name) :
    (r.openSession id scope).AlikeUpTo name Eq (r.openSession other scope) :=
  .note (.session (.opening id other scope)) fun _ => h.opened id other scope

theorem closeSession_alike (h : r.IsDiscreet name) :
    (r.closeSession id scope code).AlikeUpTo name Eq (r.closeSession other scope code) :=
  .note (.session (.closing id other scope code)) fun _ => h.closed id other scope code

theorem recording_isDiscreet : recording.IsDiscreet name where
  opened id other scope := .service (.opening id other scope) fun _ => .done rfl
  closed id other scope code := .service (.closing id other scope code) fun _ => .done rfl

end Reporter

theorem Invocation.label_of_ofArgv {label : String} {argv : List String} {cwd : Path}
    {i : Invocation} (h : ofArgv label argv cwd = .ok i) : i.label = label := by
  unfold ofArgv at h
  split at h
  · cases h
  · split at h <;> cases h
    rfl

/-- A copy of the helper is called alike for all identifiers, if it is called as a helper. -/
theorem Helper.invoke_alike (h : Helper) (args : List String) (id other : ReporterId)
    (scope : SessionScope)
    (helper : "reporter " ++ args.headD "" = "reporter before-build" ∨
      "reporter " ++ args.headD "" = "reporter after-build") :
    (h.invoke args id scope).AlikeUpTo h.idEnv Eq (h.invoke args other scope) := by
  unfold invoke invocation
  cases made : Invocation.ofArgv ("reporter " ++ args.headD "")
      ((h.locationFor scope).text :: args) scope.workdir with
  | error e => exact .done rfl
  | ok i =>
    have label : i.label = "reporter " ++ args.headD "" := Invocation.label_of_ofArgv made
    have isHelper : ((i.withEnv scope.env).withTimeout h.timeoutSecs).IsHelper := by
      rw [← label] at helper
      exact helper
    refine .command (.helper isHelper id.expose other.expose) fun reply => ?_
    exact .refl _ _

theorem Helper.reporter_isDiscreet (h : Helper) : h.reporter.IsDiscreet h.idEnv where
  opened id other scope := by
    have called := h.invoke_alike ["before-build"] id other scope (.inl (by simp))
    simp only [reporter, openSession]
    generalize h.invoke ["before-build"] id scope = p at called ⊢
    generalize h.invoke ["before-build"] other scope = q at called ⊢
    refine (Program.AlikeUpTo.refl _ (h.acquire (h.locationFor scope))).bind fun acquired _ eq => ?_
    subst eq
    rcases acquired with e | ⟨⟨⟩⟩
    · exact .done rfl
    · exact .same fun _ => called
  closed id other scope code := by
    have called := h.invoke_alike ["after-build", "--exit-code", toString code] id other scope
      (.inr (by simp))
    simp only [reporter, closeSession]
    generalize h.invoke ["after-build", "--exit-code", toString code] id scope = p at called ⊢
    generalize h.invoke ["after-build", "--exit-code", toString code] other scope = q at called ⊢
    refine .same fun acquired => ?_
    cases acquired with
    | false => exact .done rfl
    | true => exact called

/-! ## Phases -/

theorem Install.runActions_withId (ctx : JobContext) (c : Config.Installers) (id : ReporterId)
    (refreshed : Bool) (position : Nat) (actions : List InstallAction) :
    runActions (ctx.withId id) c refreshed position actions =
      runActions ctx c refreshed position actions := by
  induction actions generalizing refreshed position with
  | nil => rfl
  | cons action rest ih =>
    have refreshes : runRefresh (ctx.withId id) c refreshed action =
        runRefresh ctx c refreshed action := rfl
    have first : runAction (ctx.withId id) c position action = runAction ctx c position action := rfl
    simp only [runActions, refreshes, first, ih]

theorem JobPipeline.standard_isDiscreet (c : Config) (h : r.IsDiscreet name) :
    (standard c).IsDiscreet r name := by
  rintro phase mem ctx rfl id
  simp only [standard, List.mem_cons, List.not_mem_nil, or_false] at mem
  rcases mem with rfl | rfl | rfl | rfl | rfl
  · have same : (Phase.install c.dependencies c.installers).run (ctx.withId id) =
        (Phase.install c.dependencies c.installers).run ctx := by
      unfold Phase.install
      dsimp only
      rw [Install.runActions_withId]
      rfl
    rw [same]
    exact .refl _ _
  · exact (Reporter.openSession_alike h).bind fun reply _ eq => eq ▸ .refl _ _
  · exact .refl _ _
  · exact .same fun _ => (Reporter.closeSession_alike h).bind fun reply _ eq => eq ▸ .refl _ _
  · exact .refl _ _

/-! ## Pipelines -/

namespace JobPipeline

variable {ctx : JobContext} {stamp : Stamp}

/-- Two jobs have come equally far, with different identifiers. -/
def InStep (ctx : JobContext) (stamp : Stamp) (id : ReporterId) (p q : JobProgress) : Prop :=
  ∃ (h : History) (f : Findings),
    p = h.progress ctx stamp f ∧ q = h.progress (ctx.withId id) stamp f

theorem runPhases_alike {phases : List Phase} (h : History) (f : Findings)
    (discreet : ∀ phase ∈ phases, ∀ c : JobContext, c.reporter = ctx.reporter → ∀ id,
      (phase.run c).AlikeUpTo name Eq (phase.run (c.withId id))) (id : ReporterId) :
    (runPhases stamp (h.progress ctx stamp f) phases).AlikeUpTo name (InStep ctx stamp id)
      (runPhases stamp (h.progress (ctx.withId id) stamp f) phases) := by
  induction phases generalizing h f with
  | nil => exact .done ⟨h, f, rfl, rfl⟩
  | cons phase phases ih =>
    have rest := fun phase mem => discreet phase (List.mem_cons_of_mem _ mem)
    cases hk : h.admits phase.kind with
    | false =>
      rw [runPhases_of_not_admits hk, runPhases_of_not_admits hk]
      exact ih _ f rest
    | true =>
      rw [runPhases_of_admits hk, runPhases_of_admits hk]
      have first := discreet phase List.mem_cons_self (h.contextOf ctx f) rfl id
      refine first.bind fun r _ eq => ?_
      subst eq
      exact ih _ r.2 rest

/-- A job comes to the same result under every identifier. -/
theorem IsDiscreet.run {p : JobPipeline} (h : p.IsDiscreet ctx.reporter name)
    (fresh : ctx.resultCode = none ∧ ctx.aborted = false) (id : ReporterId) :
    (p.run ctx stamp).AlikeUpTo name Eq (p.run (ctx.withId id) stamp) := by
  have start : JobProgress.start (ctx.withId id) stamp =
      History.progress [] (ctx.withId id) stamp ctx.findings := JobProgress.start_eq fresh.1 fresh.2
  rw [JobPipeline.run, JobPipeline.run, JobProgress.start_eq fresh.1 fresh.2, start]
  refine (runPhases_alike [] ctx.findings h id).bind ?_
  rintro _ _ ⟨h, f, rfl, rfl⟩
  exact .done rfl

end JobPipeline
end CoverageMatrix
