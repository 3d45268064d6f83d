import CoverageMatrix.Proofs.Job.Course
import CoverageMatrix.Proofs.Program.Closings

/-!
# How a job closes its session

In an orderly pipeline only the closing phase closes a session. A job of such a pipeline begins to
close its session exactly if no phase before that one breaks down; it then makes one call, with the
code of the history so far (`JobPipeline.Orderly.closings`).
-/
namespace CoverageMatrix

/-! ## Orderly pipelines -/

namespace JobPipeline

/-- A pipeline in which nothing but the closing phase closes a session, and that phase does so by
one call of a reporter. -/
structure Orderly (p : JobPipeline) (reporter : Reporter) : Prop where
  closer : ∀ phase ∈ p.phases, phase.kind = .closeSession → phase = .closeSession
  others : ∀ phase ∈ p.phases, phase.kind ≠ .closeSession →
    ∀ ctx, ctx.reporter = reporter → (phase.run ctx).NeverCloses
  closed : ∀ id scope code, (reporter.closed id scope code).NeverCloses

def beforeClosing (p : JobPipeline) : List Phase :=
  p.phases.takeWhile (·.kind ≠ .closeSession)

/-- The phases that are accepted as a pipeline are those of one. -/
theorem ofPhases_eq_ok_iff {phases : List Phase} {p : JobPipeline} :
    ofPhases phases = .ok p ↔ p.phases = phases := by
  rw [ofPhases]
  split
  · next once => exact ⟨fun h => by cases h; rfl, fun h => by subst h; rfl⟩
  · next refused => exact iff_of_false nofun fun h => refused (h ▸ p.closesOnce)

theorem exists_phases_eq (p : JobPipeline) :
    ∃ closer after, p.phases = p.beforeClosing ++ closer :: after ∧ closer.kind = .closeSession ∧
      (∀ phase ∈ p.beforeClosing, phase.kind ≠ .closeSession) ∧
      ∀ phase ∈ after, phase.kind ≠ .closeSession := by
  obtain ⟨closer, only⟩ := List.length_eq_one_iff.mp p.closesOnce
  obtain ⟨before, after, phases, hb, hc, ha⟩ := List.filter_eq_cons_iff.mp only
  have hc : closer.kind = .closeSession := by simpa using hc
  have hb : ∀ phase ∈ before, phase.kind ≠ .closeSession := by simpa using hb
  have eq : p.beforeClosing = before := by
    rw [beforeClosing, phases, List.takeWhile_append_of_pos (by simpa using hb),
      List.takeWhile_cons_of_neg (by simp [hc]), List.append_nil]
  refine ⟨closer, after, eq ▸ phases, hc, eq ▸ hb, ?_⟩
  simpa using List.filter_eq_nil_iff.mp ha

end JobPipeline

/-! ## One job -/

variable {ctx : JobContext} {h : History} {f : Findings} {t : Transcript}

theorem Course.closings_eq_nil {phases : List Phase} {e : Option (History × Findings)}
    (course : Course ctx h f phases t e)
    (quiet : ∀ phase ∈ phases, ∀ c : JobContext, c.reporter = ctx.reporter →
      (phase.run c).NeverCloses) : t.closings = [] := by
  induction course with
  | finished => rfl
  | skipped _ _ ih => exact ih fun phase hp => quiet phase (List.mem_cons_of_mem _ hp)
  | @ran h f _ _ _ _ _ _ _ _ run _ ih =>
    have first := quiet _ List.mem_cons_self (h.contextOf ctx f) rfl
    rw [Transcript.closings_append, first.closings_eq_nil run,
      ih fun phase hp => quiet phase (List.mem_cons_of_mem _ hp), List.append_nil]
  | @brokeDown h f _ _ _ _ run =>
    have first := quiet _ List.mem_cons_self (h.contextOf ctx f) rfl
    exact first.closings_eq_nil run

theorem Reporter.closings_closeSession {r : Reporter} {id : ReporterId} {scope : SessionScope}
    {code : Int} {o : Option (Except PipelineError Unit)}
    (closed : (r.closed id scope code).NeverCloses)
    (run : (r.closeSession id scope code).Follows t o) :
    t.closings = [.session (.closing id scope code)] := by
  obtain ⟨u, rfl, rest⟩ := Program.follows_note_iff.mp run
  have quiet : u.closings = [] := closed.closings_eq_nil rest
  rw [Transcript.closings_cons, quiet]
  simp [Request.notes]

theorem Phase.closings_closeSession {o : Option (PhaseOutcome × Findings)}
    (closed : ∀ id scope code, (ctx.reporter.closed id scope code).NeverCloses)
    (run : (Phase.closeSession.run ctx).Follows t o) :
    t.closings =
      [.closing ctx.job.id, .session (.closing ctx.reporterId ctx.scope ctx.closingCode)] := by
  obtain ⟨u, rfl, rest⟩ := Program.follows_note_iff.mp run
  have call : u.closings = [.session (.closing ctx.reporterId ctx.scope ctx.closingCode)] := by
    replace rest : (Program.bind (ctx.reporter.closeSession _ _ _) _).Follows u o := rest
    rcases Program.follows_bind_iff.mp rest with ⟨u₁, u₂, a, rfl, call, done⟩ | ⟨rfl, call⟩
    · have stop : u₂ = [] := by
        rcases a with e | ⟨⟨⟩⟩ <;> exact (Program.follows_done_iff.mp done).1
      rw [stop, List.append_nil]
      exact Reporter.closings_closeSession (closed _ _ _) call
    · exact Reporter.closings_closeSession (closed _ _ _) call
  rw [Transcript.closings_cons, call]
  simp [Request.notes, List.filter_cons]

namespace JobPipeline

/-- The code with which the session of a job has to be closed that took a transcript: that of the
history before closing, or minus one if a phase broke down before that. -/
inductive ClosesWith (p : JobPipeline) (ctx : JobContext) (t : Transcript) : Int → Prop
  | begun {t₁ t₂ : Transcript} {h : History} {f : Findings} (ht : t = t₁ ++ t₂)
    (course : Course ctx [] ctx.findings p.beforeClosing t₁ (some (h, f))) : ClosesWith p ctx t h.code
  | brokeDown (course : Course ctx [] ctx.findings p.beforeClosing t none) :
    ClosesWith p ctx t setupFailureCode

theorem ClosesWith.unique {p : JobPipeline} {c d : Int} (hc : p.ClosesWith ctx t c)
    (hd : p.ClosesWith ctx t d) : c = d := by
  cases hc with
  | begun ht course =>
    cases hd with
    | begun ht' course' =>
      cases (course.cut course' (ht.symm.trans ht')).2
      rfl
    | brokeDown course' =>
      cases (course.cut course' (ht.symm.trans (List.append_nil t).symm)).2
  | brokeDown course =>
    cases hd with
    | begun ht' course' =>
      cases (course.cut course' ((List.append_nil t).trans ht')).2
    | brokeDown => rfl

/-- A job either begins to close its session, and then makes one call with the right code, or breaks
down before that and leaves the session open. -/
theorem Orderly.closings {p : JobPipeline} {e : Option (History × Findings)}
    (orderly : p.Orderly ctx.reporter) (course : Course ctx [] ctx.findings p.phases t e) :
    (∃ scope code, scope.jobId = ctx.job.id ∧ p.ClosesWith ctx t code ∧
      t.closings = [.closing ctx.job.id, .session (.closing ctx.reporterId scope code)]) ∨
    (e = none ∧ p.ClosesWith ctx t setupFailureCode ∧ t.closings = []) := by
  obtain ⟨closer, after, phases, hc, hb, ha⟩ := p.exists_phases_eq
  obtain rfl : closer = .closeSession := orderly.closer closer (by simp [phases]) hc
  have before_quiet : ∀ phase ∈ p.beforeClosing, ∀ c : JobContext, c.reporter = ctx.reporter →
      (phase.run c).NeverCloses := fun phase hp =>
    orderly.others phase (by simp [phases, hp]) (hb phase hp)
  have after_quiet : ∀ phase ∈ after, ∀ c : JobContext, c.reporter = ctx.reporter →
      (phase.run c).NeverCloses := fun phase hp =>
    orderly.others phase (by simp [phases, hp]) (ha phase hp)
  rw [phases] at course
  rcases course.split with ⟨t₁, t₂, h, f, rfl, before, rest⟩ | ⟨rfl, broken⟩
  · refine .inl ⟨(h.contextOf ctx f).scope, h.code, rfl, .begun rfl before, ?_⟩
    rw [Transcript.closings_append, before.closings_eq_nil before_quiet, List.nil_append]
    have closed : ∀ id scope code,
        ((h.contextOf ctx f).reporter.closed id scope code).NeverCloses := orderly.closed
    -- the closing phase always runs, and the phases behind it close nothing
    cases rest with
    | skipped hk => cases hk
    | ran _ run rest =>
      rw [Transcript.closings_append, rest.closings_eq_nil after_quiet, List.append_nil]
      exact Phase.closings_closeSession closed run
    | brokeDown _ run => exact Phase.closings_closeSession closed run
  · exact .inr ⟨rfl, .brokeDown broken, broken.closings_eq_nil before_quiet⟩

end JobPipeline
end CoverageMatrix
