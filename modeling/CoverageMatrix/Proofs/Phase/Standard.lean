import CoverageMatrix.Job.Pipeline
import CoverageMatrix.Proofs.Job.Closing
import CoverageMatrix.Proofs.Phase.Requests

/-!
# What the phases of the library keep to

None of the phases of the library breaks down by itself, and apart from the closing phase none
closes a session. The phase of the tests either fails or completes with a code; the others never
complete.
-/
namespace CoverageMatrix

/-- Whether a phase of the library of a given kind may end in an outcome. -/
def PhaseKind.allows : PhaseKind → PhaseOutcome → Bool
  | testRun, .passed => false
  | testRun, _ => true
  | _, .completed _ => false
  | _, _ => true

variable {ctx : JobContext}

/-! ## Setting up -/

theorem Phase.install_sound (actions : List InstallAction) (c : Config.Installers) :
    ((Phase.install actions c).run ctx).IsSound fun r => PhaseKind.install.allows r.1 := by
  have quiet : ∀ i : Invocation, ctx.Owns i → i.IsInstall → (Request.command i).IsQuiet :=
    fun i _ _ => Request.isQuiet_command i
  refine (Install.runActions_obeys c quiet false 1 actions).bind fun outcome incomplete => ?_
  cases outcome with
  | passed | failed => rfl
  | completed code => exact absurd rfl (incomplete code)

/-! ## Sessions -/

namespace Phase

variable {P : Request → Prop} {C : Prop}

theorem openSession_obeys
    (call : P (.note (.session (.opening ctx.reporterId ctx.scope))))
    (opened : (ctx.reporter.opened ctx.reporterId ctx.scope).Obeys P C fun _ => True) :
    (Phase.openSession.run ctx).Obeys P C fun r => PhaseKind.openSession.allows r.1 := by
  refine ⟨call, fun _ => opened.bind fun reply _ => ?_⟩
  rcases reply with e | ⟨⟨⟩⟩ <;> rfl

theorem closeSession_obeys (begins : P (.note (.closing ctx.job.id)))
    (call : P (.note (.session (.closing ctx.reporterId ctx.scope ctx.closingCode))))
    (closed : (ctx.reporter.closed ctx.reporterId ctx.scope ctx.closingCode).Obeys P C
      fun _ => True) :
    (Phase.closeSession.run ctx).Obeys P C fun r => PhaseKind.closeSession.allows r.1 := by
  refine ⟨begins, fun _ => ⟨call, fun _ => closed.bind fun reply _ => ?_⟩⟩
  rcases reply with e | ⟨⟨⟩⟩ <;> rfl

end Phase

/-! ## Tests and export -/

theorem CoverageState.erase_sound (s : CoverageState) : s.erase.IsSound fun _ => True := by
  refine ⟨Request.isQuiet_of_notes_eq_nil rfl, fun reply => ?_⟩
  simp only [Program.bind]
  split <;> trivial

theorem CoverageState.collect_sound (s : CoverageState) : s.collect.IsSound fun _ => True := by
  refine ⟨Request.isQuiet_of_notes_eq_nil rfl, fun reply => ?_⟩
  simp only [Program.bind]
  split <;> trivial

namespace Phase

theorem testRun_sound (c : Config.Tests) :
    ((Phase.testRun c).run ctx).IsSound fun r => PhaseKind.testRun.allows r.1 := by
  refine (CoverageState.erase_sound _).bind fun erased _ => ?_
  obtain ⟨e | ⟨⟨⟩⟩, coverage⟩ := erased
  · rfl
  · dsimp only
    cases ctx.invocation "test suite" c.template with
    | error e => rfl
    | ok i =>
      refine ⟨Request.isQuiet_command _, fun reply => ?_⟩
      exact (CoverageState.collect_sound _).bind fun _ _ => rfl

theorem exportCoverage_sound (c : Config.Export) :
    ((Phase.exportCoverage c).run ctx).IsSound fun r => PhaseKind.exportCoverage.allows r.1 := by
  unfold Phase.exportCoverage
  dsimp only
  cases ctx.invocation "coverage export" c.command with
  | error e => rfl
  | ok i =>
    refine ⟨Request.isQuiet_command _, fun reply => ?_⟩
    rcases reply with e | output
    · rfl
    · simp only [Program.bind]
      split
      · refine ⟨Request.isQuiet_of_notes_eq_nil rfl, fun isPresent => ?_⟩
        cases isPresent <;> rfl
      · rfl

end Phase

/-! ## The standard pipeline -/

/-- In the standard pipeline only the closing phase closes the session, if the reporter does not do
so by itself. -/
theorem JobPipeline.standard_orderly (c : Config) {reporter : Reporter}
    (opened : ∀ id scope, (reporter.opened id scope).NeverCloses)
    (closed : ∀ id scope code, (reporter.closed id scope code).NeverCloses) :
    (JobPipeline.standard c).Orderly reporter where
  closer := by simp [standard, Phase.install, Phase.openSession, Phase.testRun, Phase.exportCoverage]
  others := by
    rintro phase mem kind ctx rfl
    simp only [standard, List.mem_cons, List.not_mem_nil, or_false] at mem
    rcases mem with rfl | rfl | rfl | rfl | rfl
    · exact (Phase.install_sound _ _).neverCloses
    · exact (Phase.openSession_obeys (Request.isQuiet_note rfl) (opened _ _)).mono (fun _ => id) id
        fun _ _ => trivial
    · exact (Phase.testRun_sound _).neverCloses
    · exact absurd rfl kind
    · exact (Phase.exportCoverage_sound _).neverCloses
  closed := closed

/-- The phases of the standard pipeline end as phases of the library do, and break down by
themselves only if the reporter does. -/
theorem JobPipeline.standard_obeys (c : Config) {reporter : Reporter} {C : Prop}
    (opened : ∀ id scope, (reporter.opened id scope).Obeys (fun _ => True) C fun _ => True)
    (closed : ∀ id scope code, (reporter.closed id scope code).Obeys (fun _ => True) C fun _ => True) :
    ∀ phase ∈ (JobPipeline.standard c).phases, ∀ ctx : JobContext, ctx.reporter = reporter →
      (phase.run ctx).Obeys (fun _ => True) C fun r => phase.kind.allows r.1 := by
  rintro phase mem ctx rfl
  simp only [standard, List.mem_cons, List.not_mem_nil, or_false] at mem
  rcases mem with rfl | rfl | rfl | rfl | rfl
  · exact (Phase.install_sound _ _).mono (fun _ _ => trivial) False.elim fun _ => id
  · exact Phase.openSession_obeys trivial (opened _ _)
  · exact (Phase.testRun_sound _).mono (fun _ _ => trivial) False.elim fun _ => id
  · exact Phase.closeSession_obeys trivial trivial (closed _ _ _)
  · exact (Phase.exportCoverage_sound _).mono (fun _ _ => trivial) False.elim fun _ => id

theorem JobPipeline.standard_allows (c : Config) :
    ∀ phase ∈ (JobPipeline.standard c).phases, ∀ ctx : JobContext,
      (phase.run ctx).Obeys (fun _ => True) True fun r => phase.kind.allows r.1 :=
  fun phase mem ctx => standard_obeys c (fun _ _ => Program.obeys_true _)
    (fun _ _ _ => Program.obeys_true _) phase mem ctx rfl

theorem JobPipeline.standard_steady (c : Config) {reporter : Reporter}
    (opened : ∀ id scope, (reporter.opened id scope).Steady)
    (closed : ∀ id scope code, (reporter.closed id scope code).Steady) :
    (JobPipeline.standard c).IsSteady reporter := by
  intro phase mem ctx same
  have obeys := standard_obeys c opened closed phase mem ctx same
  exact obeys.mono (fun _ => id) id fun _ _ => trivial

end CoverageMatrix
