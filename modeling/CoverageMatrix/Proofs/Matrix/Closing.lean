import CoverageMatrix.Proofs.Matrix.Settling

/-!
# The sessions of a matrix

Each job notes closings of its own session only, so what a world knows of a session is what its job
has asked and what the settlement has added. Together they make one call for each job.
-/
namespace CoverageMatrix

theorem Trace.closingsOf_notes {t : Trace} {job : JobId}
    (others : ∀ s ∈ t, s.1 ≠ job → ∀ n ∈ s.2.request.notes, n.closes? ≠ some job) :
    closingsOf job t.notes = closingsOf job (t.of job).notes := by
  induction t with
  | nil => rfl
  | cons s rest ih =>
    have ih := ih fun s mem => others s (List.mem_cons_of_mem _ mem)
    have split : Trace.notes (s :: rest) = s.2.request.notes ++ notes rest := by simp [notes]
    rw [split, closingsOf_append, ih]
    by_cases h : s.1 = job
    · simp [of, h]
    · have none : closingsOf job s.2.request.notes = [] := by
        simpa [closingsOf, List.filter_eq_nil_iff] using others s List.mem_cons_self h
      simp [of, h, none]

theorem Trace.mem_of {t : Trace} {s : JobId × Exchange} (h : s ∈ t) : s.2 ∈ t.of s.1 :=
  List.mem_map.mpr ⟨s, List.mem_filter.mpr ⟨h, by simp⟩, rfl⟩

namespace MatrixRunner

variable {m : MatrixRunner} {host : Host} {stamps : Nat → Stamp} {w v : World} {t : Trace}
  {endings : List JobEnding} {job : Job} {r : Option JobResult}

theorem Concluded.of_foreign (h : m.Concluded host stamps w t endings v) {id : JobId}
    (foreign : ∀ job ∈ m.config.jobs, job.id ≠ id) : t.of id = [] := by
  rw [Trace.of, List.map_eq_nil_iff, List.filter_eq_nil_iff]
  intro s hs named
  obtain ⟨job, mem, eq⟩ := h.named s hs
  exact foreign job mem (eq.trans (of_decide_eq_true named))

theorem Concluded.closes_own (h : m.Concluded host stamps w t endings v)
    (orderly : m.pipeline.Orderly m.reporter) {s : JobId × Exchange} (hs : s ∈ t) {n : Note}
    (hn : n ∈ s.2.request.notes) : n.closes? = none ∨ n.closes? = some s.1 := by
  obtain ⟨job, mem, eq⟩ := h.named s hs
  obtain ⟨r, mem⟩ := h.exists_ending mem
  obtain ⟨e, course, -⟩ := h.course mem
  by_cases closes : n.closes? = none
  · exact .inl closes
  · have mem : n ∈ (t.of job.id).closings := by
      refine List.mem_filter.mpr ⟨List.mem_flatMap.mpr ⟨s.2, eq ▸ Trace.mem_of hs, hn⟩, ?_⟩
      exact Option.isSome_iff_ne_none.mpr closes
    rcases orderly.closings course with ⟨scope, code, hscope, -, closings⟩ | ⟨-, -, closings⟩
    · rw [closings] at mem
      have hscope : scope.jobId = job.id := hscope
      rcases List.mem_pair.mp mem with rfl | rfl
      · exact .inr (congrArg some eq)
      · exact .inr (congrArg some (hscope.trans eq))
    · rw [closings] at mem
      exact absurd mem List.not_mem_nil

/-- What is known of a session once all jobs have ended is what its job has asked. -/
theorem Concluded.closingsOf_journal (h : m.Concluded host stamps w t endings v)
    (orderly : m.pipeline.Orderly m.reporter) (id : JobId) :
    closingsOf id v.journal = closingsOf id w.renewed.journal ++ closingsOf id (t.of id).notes := by
  rw [h.journal, closingsOf_append, Trace.closingsOf_notes]
  intro s hs ne n hn own
  rcases h.closes_own orderly hs hn with none | other
  · rw [none] at own
    cases own
  · rw [other] at own
    exact ne (Option.some.inj own)

/-- The session of a job that has ended is closed by one call in all: its own, or else a late one.
-/
theorem Concluded.closings (h : m.Concluded host stamps w t endings v)
    (orderly : m.pipeline.Orderly m.reporter) (mem : (job, r) ∈ endings) :
    ∃ code, m.pipeline.ClosesWith (m.contextFor host.cwd.path job) (t.of job.id) code ∧
      (closingsOf job.id v.journal ++ m.lateClosings host.cwd.path v (job, r)).filterMap
        Note.closingCode? = w.closingCodes job.id ++ [code] := by
  have before : (closingsOf job.id w.renewed.journal).filterMap Note.closingCode? =
      w.closingCodes job.id := by
    rw [← World.closingCodes_eq, World.closingCodes_renewed]
  have fresh := w.hasBegunClosing_renewed job.id
  have journal := h.closingsOf_journal orderly job.id
  obtain ⟨e, course, rfl⟩ := h.course mem
  rcases orderly.closings course with ⟨scope, code, hscope, closesWith, own⟩ | ⟨rfl, closesWith, own⟩
  · have hscope : scope.jobId = job.id := hscope
    refine ⟨code, closesWith, ?_⟩
    rw [Transcript.closingsOf_notes, own] at journal
    have begun : v.hasBegunClosing job.id = true := by
      rw [World.hasBegunClosing_iff, journal]
      simp [contextFor, JobContext.start]
    rw [journal, lateClosings, begun]
    simp [before, hscope, contextFor, JobContext.start, List.filterMap_cons, Note.closingCode?,
      SessionCall.closingCode?]
  · refine ⟨setupFailureCode, closesWith, ?_⟩
    rw [Transcript.closingsOf_notes, own, List.filter_nil, List.append_nil] at journal
    have open_ : v.hasBegunClosing job.id = false := by
      rw [World.hasBegunClosing_congr journal, fresh]
    rw [journal, lateClosings, open_]
    simp [before, Note.closingCode?, SessionCall.closingCode?]

end MatrixRunner
end CoverageMatrix
