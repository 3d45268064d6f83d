import CoverageMatrix.Proofs.CommandLine.Exit
import CoverageMatrix.Proofs.Matrix.Theorems
import CoverageMatrix.Proofs.Matrix.Variables

/-!
# The identifier of a run

A run takes the first identifier that it is given, by an option, by a variable or by its pipeline
file, and an empty one is given too: it stops the run even if a later one is not empty
(`matrix_starts_with_first_given`).
-/
namespace CoverageMatrix

/-! ## The variable of the helper -/

/-- Every command of the helper is told the identifier, whatever else has the name of its variable. -/
theorem Invocation.RunsUnder.get?_idEnv {i : Invocation} {home : Path}
    {settings : List (String × String)} {code : Option Int} {idEnv : String} {id : ReporterId}
    (runs : i.RunsUnder home (settings ++ i.extras code idEnv id)) (told : i.IsHelper) :
    i.env.get? idEnv = some id.expose := by
  have last : i.extras code idEnv id = (if i.label = "coverage export" ∨
      i.label = "reporter after-build" then resultSettings code else []) ++ [(idEnv, id.expose)] := by
    rw [Invocation.extras, if_pos (show i.label = _ ∨ i.label = _ from told)]
  rw [runs.env, last, List.reverse_append, List.reverse_append]
  exact EnvVars.lookup_cons_self _ _ _

theorem MatrixRunner.Ends.tells_helper {c : Config} {id : ReporterId} {helper : Helper} {host : Host}
    {stamps : Nat → Stamp} {w w' : World} {t : Trace}
    {out : Option (Except PipelineError MatrixResult)}
    (ends : (standard c id helper.reporter).Ends host stamps w t out w') (valid : c.validate = .ok ())
    (tells : helper.idEnv = c.reporter.idEnv) :
    ∃ made, w'.invocations = w.invocations ++ made ∧
      ∀ i ∈ made, i.IsHelper → i.env.get? c.reporter.idEnv = some id.expose := by
  rcases ends.unpermitted_or_concluded valid with ⟨rfl, rfl, rfl⟩ | ⟨endings, v, concluded, rfl⟩
  · exact ⟨[], (List.append_nil _).symm, List.forall_mem_nil _⟩
  · obtain ⟨late, all, told⟩ := concluded.late_runUnder tells
    refine ⟨commandsOf t.notes ++ late, by rw [all, List.append_assoc], fun i mem reports => ?_⟩
    rcases List.mem_append.mp mem with mem | mem
    · obtain ⟨job, own, u, x, u', split, handed⟩ := concluded.exists_exchange mem
      exact (concluded.runsUnder tells own split i handed).1.get?_idEnv reports
    · obtain ⟨-, job, -, -, runs⟩ := told i mem
      exact runs.get?_idEnv reports

namespace CommandLine

variable {host : Host} {stamps : Nat → Stamp} {env : EnvVars} {args : List String} {o : RunOptions}
  {w : World} {c : Config}

/-! ## Where an identifier comes from -/

theorem runRequest_eq_ok_iff {r : Request} : runRequest env args = .ok r ↔
    ∃ s rest, scan runOptions false 0 {} none args = .ok (s, rest) ∧ .run
      { config := configOf s
        reporterId := (s.value? "reporter-id").or (env.get? idVariable)
        noReport := s.has "no-report"
        summary := (s.value? "summary").map Path.mk
        parallel := (s.value? "parallel").bind number?
        versions := versionsOf s } = r := by
  simp only [runRequest, bind_eq_ok_iff, pure, Except.pure, Except.ok.injEq, Prod.exists]

theorem planRequest_ne_run : planRequest args ≠ .ok (.run o) := by
  simp [planRequest, bind_eq_ok_iff, pure, Except.pure]

theorem initRequest_ne_run : initRequest args ≠ .ok (.run o) := by
  intro asked
  obtain ⟨⟨s, rest⟩, -, asked⟩ := bind_eq_ok_iff.mp asked
  dsimp only at asked
  split at asked <;> cases asked

/-- The arguments alone say what a run is to do, but for the identifier that a variable holds. -/
theorem request_run (accepted : request .empty args = .ok (.run o)) (env : EnvVars) :
    request env args =
      .ok (.run { o with reporterId := o.reporterId.or (env.get? idVariable) }) := by
  simp only [request, bind_eq_ok_iff] at accepted ⊢
  obtain ⟨⟨s, rest⟩, scanned, asked⟩ := accepted
  refine ⟨(s, rest), scanned, ?_⟩
  dsimp only at asked ⊢
  split at asked
  · obtain ⟨s, more, scanned, eq⟩ := runRequest_eq_ok_iff.mp asked
    cases eq
    refine runRequest_eq_ok_iff.mpr ⟨s, more, scanned, ?_⟩
    simp
  · exact absurd asked planRequest_ne_run
  · exact absurd asked initRequest_ne_run
  all_goals cases asked

theorem resolveId_of_first {given : Option String} {s : String}
    (first : given.or c.reporter.id = some s) (filled : s ≠ "") :
    resolveId given c false = .ok ⟨s⟩ := by
  rw [resolveId, first]
  simp [filled]

theorem resolveId_of_none {given : Option String}
    (none : ¬∃ s, given.or c.reporter.id = some s ∧ s ≠ "") :
    resolveId given c false = .error noReporterId := by
  rw [resolveId]
  cases first : given.or c.reporter.id with
  | none => rfl
  | some s =>
    have empty : s = "" := Classical.byContradiction fun filled => none ⟨s, first, filled⟩
    simp [empty]

theorem settle_of_loaded (loaded : loadConfig host w o.config o.parallel o.versions = .ok c) :
    settle host o w = (resolveId o.reporterId c o.noReport).map (c, ·) := by
  rw [settle, loaded]
  rfl

/-- A run that is to report, and whose configuration can be loaded, starts its matrix exactly if the
first of the option, the variable and the configuration that gives an identifier gives one that is
not empty; otherwise it ends at once. Whatever the commands do and in whatever order the jobs take
their steps, also those that were aborted or broke down, each command of the helper is told that
identifier by the variable that the configuration names. -/
theorem matrix_starts_with_first_given (host : Host) (stamps : Nat → Stamp) (env : EnvVars)
    (args : List String) (o : RunOptions) (w : World) (c : Config)
    (accepted : request .empty args = .ok (.run o)) (reports : o.noReport = false)
    (loaded : loadConfig host w o.config o.parallel o.versions = .ok c) :
    let given := o.reporterId.or (env.get? idVariable)
    let first := given.or c.reporter.id
    let o' := { o with reporterId := given }
    request env args = .ok (.run o') ∧
    ((∃ id, settle host o' w = .ok (c, id)) ↔ ∃ s, first = some s ∧ s ≠ "") ∧
    ((¬∃ s, first = some s ∧ s ≠ "") →
      ∀ x, RunsTo host stamps o' w x → x = some (.failed "" noReporterId w)) ∧
    ∀ s, first = some s → s ≠ "" →
      let m := MatrixRunner.standard c ⟨s⟩ (Helper.ofConfig c.reporter host.cwd.path).reporter
      settle host o' w = .ok (c, ⟨s⟩) ∧
      (∀ x, RunsTo host stamps o' w x → ∃ t ending w', m.Ends host stamps w t ending w' ∧
        x = ending.map fun e => conclude host o' c e w') ∧
      ∀ t ending w', m.Ends host stamps w t ending w' →
        ∃ made, w'.invocations = w.invocations ++ made ∧
          ∀ i ∈ made, i.IsHelper → i.env.get? c.reporter.idEnv = some s := by
  intro given first o'
  have valid : c.validate = .ok () := (loadConfig_eq_ok_iff.mp loaded).2
  have settled : settle host o' w = (resolveId given c false).map (c, ·) := by
    rw [← reports]
    exact settle_of_loaded (o := o') loaded
  have started {s : String} (eq : first = some s) (filled : s ≠ "") :
      settle host o' w = .ok (c, ⟨s⟩) := by
    rw [settled, resolveId_of_first eq filled]
    rfl
  have stopped (none : ¬∃ s, first = some s ∧ s ≠ "") : settle host o' w = .error noReporterId := by
    rw [settled, resolveId_of_none none]
    rfl
  refine ⟨request_run accepted env, ⟨fun starts => ?_, fun given => ?_⟩, fun none x runs => ?_,
    fun s eq filled => ⟨started eq filled, fun x runs => ?_,
      fun t ending w' ends => ends.tells_helper valid rfl⟩⟩
  · by_contra none
    obtain ⟨id, starts⟩ := starts
    rw [stopped none] at starts
    cases starts
  · obtain ⟨s, eq, filled⟩ := given
    exact ⟨_, started eq filled⟩
  · cases runs with
    | stopped h =>
      rw [stopped none] at h
      cases h
      rfl
    | ended h =>
      rw [stopped none] at h
      cases h
  · cases runs with
    | stopped h =>
      rw [started eq filled] at h
      cases h
    | ended h ends =>
      rw [started eq filled] at h
      cases h
      have reporter : chooseReporter c o'.noReport host.cwd.path =
          (Helper.ofConfig c.reporter host.cwd.path).reporter := if_neg (by simp [o', reports])
      rw [reporter] at ends
      exact ⟨_, _, _, ends, rfl⟩

/-- A configuration that gives an identifier. -/
def identified : Config :=
  { reporter := { id := some "file" } }

/-- A world with a pipeline file of that configuration. -/
def identifiedWorld : World :=
  ⟨⟨[(["work"], .directory),
    (["covpipe.toml", "work"], .file "[reporter]\nid = \"file\"\n".toUTF8 false)]⟩, []⟩

/-- Where nothing is given on the command line but a variable holds an identifier, the helper is told
that one and not the one of the pipeline file. -/
theorem matrix_starts_with_first_given_variable :
    let host := MatrixRunner.brokenCopyHost "false"
    let stamps : Nat → Stamp := fun _ => ⟨"run", "now"⟩
    let env := EnvVars.empty.insert idVariable "variable"
    let m := MatrixRunner.standard identified ⟨"variable"⟩
      (Helper.ofConfig identified.reporter host.cwd.path).reporter
    ∃ o, request env ["run"] = .ok (.run o) ∧
      settle host o identifiedWorld = .ok (identified, ⟨"variable"⟩) ∧
      ∃ t out w', m.Ends host stamps identifiedWorld t out w' ∧ (∃ i ∈ w'.invocations, i.IsHelper) ∧
        ∀ i ∈ w'.invocations, i.IsHelper → i.env.get? "CC_TEST_REPORTER_ID" = some "variable" := by
  intro host stamps env m
  obtain ⟨o, c, accepted, loaded, computed⟩ := exists_of_asked? host identifiedWorld ["run"]
    (fun (o, c) => o.noReport = false ∧ o.reporterId = none ∧ c = identified) (by decide +kernel)
  obtain ⟨reports, silent, rfl⟩ : o.noReport = false ∧ o.reporterId = none ∧ c = identified := by
    simpa using computed
  have known : env.get? idVariable = some "variable" := by
    simp [env]
  have first : (o.reporterId.or (env.get? idVariable)).or identified.reporter.id =
      some "variable" := by
    rw [silent, known]
    rfl
  obtain ⟨asked, -, -, each⟩ := matrix_starts_with_first_given host stamps env ["run"] o
    identifiedWorld identified accepted reports loaded
  obtain ⟨settled, -, told⟩ := each "variable" first (by decide)
  have helped : (m.run host stamps identifiedWorld).2.invocations.any
      (·.label = "reporter before-build") = true := by
    decide +kernel
  obtain ⟨t, ends⟩ := m.ends_run host stamps identifiedWorld (by decide)
  obtain ⟨made, all, named⟩ := told t _ _ ends
  have same : (m.run host stamps identifiedWorld).2.invocations = made := all
  refine ⟨_, asked, settled, t, _, _, ends, ?_, fun i mem => named i (same ▸ mem)⟩
  obtain ⟨i, mem, label⟩ := List.any_eq_true.mp helped
  exact ⟨i, mem, .inl (by simpa using label)⟩

/-- An option that gives the empty text hides the identifier of the pipeline file: the run is stopped,
though something is given that is not empty. -/
theorem starts_with_any_given_hidden :
    let host := MatrixRunner.brokenCopyHost "false"
    let args := ["run", "--reporter-id", ""]
    ∃ o c, request .empty args = .ok (.run o) ∧ o.noReport = false ∧
      loadConfig host identifiedWorld o.config o.parallel o.versions = .ok c ∧
      ¬((∃ id, settle host o identifiedWorld = .ok (c, id)) ↔ ∃ s, s ≠ "" ∧ (o.reporterId = some s ∨
        EnvVars.empty.get? idVariable = some s ∨ c.reporter.id = some s)) := by
  intro host args
  obtain ⟨o, c, accepted, loaded, computed⟩ := exists_of_asked? host identifiedWorld args
    (fun (o, c) => o.noReport = false ∧ o.reporterId = some "" ∧ c = identified) (by decide +kernel)
  obtain ⟨reports, hidden, rfl⟩ : o.noReport = false ∧ o.reporterId = some "" ∧ c = identified := by
    simpa using computed
  refine ⟨o, identified, accepted, reports, loaded, fun starts => ?_⟩
  obtain ⟨id, starts⟩ := starts.mpr ⟨"file", by decide, .inr (.inr rfl)⟩
  rw [settle_of_loaded loaded, hidden, reports] at starts
  cases starts

end CommandLine
end CoverageMatrix
