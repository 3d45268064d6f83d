import CoverageMatrix.Proofs.Matrix.Footprint
import CoverageMatrix.Proofs.Matrix.Variables
import CoverageMatrix.Proofs.Path
import CoverageMatrix.Shell.Host

/-!
# Where the paths of a job lead

The paths that a job hands to its commands are looked up once more from the directory in which these
run. An absolute path leads to the same file from everywhere, and all that a job goes by is absolute
unless the working directory of the configuration is the empty path. From that no command can be
started, so that no path is ever looked up from two places (`MatrixRunner.paths_resolve_once`).
-/
namespace CoverageMatrix

/-! ## Paths seen from two directories -/

namespace Files

/-- Seen from two directories a path leads to one file: what is read, written and removed there is
the same. -/
structure SameFrom (here there : Location) (p : Path) : Prop where
  read : ∀ t : Tree, t.read here p = t.read there p
  write : ∀ (t : Tree) content, t.write here p content = t.write there p content
  remove : ∀ t : Tree, t.removeFile here p = t.removeFile there p

theorem sameFrom_of_isAbsolute {p : Path} (h : p.isAbsolute = true) (here there : Location) :
    SameFrom here there p := by
  have located (t : Tree) : t.locate here p = t.locate there p := by
    simp only [Tree.locate, h, if_true]
  exact
    { read := fun t => by simp only [Tree.read, Tree.find, located]
      write := fun t content => by simp only [Tree.write, Tree.openNew, located]
      remove := fun t => by simp only [Tree.removeFile, located] }

theorem Location.isAbsolute_path (l : Location) : l.path.isAbsolute = true := by
  simp [Location.path, Path.isAbsolute]

theorem Tree.text_ne_of_find {t : Tree} {cwd : Location} {p : Path} {found : Location × Entry}
    (h : t.find cwd p = .ok found) : p.text ≠ "" := by
  intro empty
  have nowhere : t.locate cwd p = .error .notFound := by
    simp [Tree.locate, empty]
  rw [Tree.find, nowhere] at h
  cases h

end Files

/-- No command is started in a directory that the empty path names. -/
theorem Shell.text_ne_of_prepare {host : Files.Location} {env : EnvVars} {files : Files.Tree}
    {i : Invocation} {started : Files.Location × Shell.Loader.Loaded}
    (h : Shell.prepare host env files i = .ok started) : i.cwd.text ≠ "" := by
  rw [Shell.prepare] at h
  split at h
  · cases h
  · cases found : files.find host i.cwd with
    | error fault =>
      rw [found] at h
      cases h
    | ok place => exact Files.Tree.text_ne_of_find found

/-! ## The paths of a job -/

namespace JobContext

variable (c : Config) (job : Job) (id : ReporterId) (reporter : Reporter) (cwd : Files.Location)

theorem isAbsolute_workdir_start :
    (start c job id reporter cwd.path).workdir.isAbsolute = true ↔ c.workdir.text ≠ "" := by
  have eq : (start c job id reporter cwd.path).workdir = c.workdir.absolute cwd.path := rfl
  rw [eq]
  by_cases empty : c.workdir.text = ""
  · rw [Path.absolute_of_empty empty]
    simp [Path.isAbsolute, empty]
  · simp [(Path.components_absolute empty).2, cwd.isAbsolute_path, empty]

theorem isAbsolute_dataFile (workdir : Path) (tests : Config.Tests) (job : JobId) :
    (dataFile workdir tests job).isAbsolute = (tests.coverageFile.isAbsolute || workdir.isAbsolute) := by
  have marked : (tests.coverageFile.append ("." ++ job.text)).isAbsolute =
      tests.coverageFile.isAbsolute := by
    by_cases empty : tests.coverageFile.text = ""
    · simp [Path.append, Path.isAbsolute, empty]
    · exact Path.isAbsolute_append empty
  rw [dataFile]
  cases h : tests.coverageFile.isAbsolute with
  | true =>
    rw [h] at marked
    rw [Path.join, if_pos marked, marked, Bool.true_or]
  | false =>
    rw [Path.isAbsolute_join_of_relative (marked.trans h), Bool.false_or]

end JobContext

theorem Helper.isAbsolute_locationFor (helper : Helper) (scope : SessionScope) {cwd : Files.Location}
    (here : helper.cwd = cwd.path) : (helper.locationFor scope).isAbsolute = true := by
  have named : ((scope.workdir.join helper.path).append ("-" ++ scope.jobId.text)).text ≠ "" := by
    simp [Path.append]
  rw [Helper.locationFor, here, (Path.components_absolute named).2, cwd.isAbsolute_path,
    Bool.or_true]

/-! ## Where the requests of a job go -/

theorem Program.Obeys.and {α : Type} {P P' : Request → Prop} {C C' : Prop} {Q Q' : α → Prop}
    {p : Program α} (h : p.Obeys P C Q) (g : p.Obeys P' C' Q') :
    p.Obeys (fun r => P r ∧ P' r) (C ∧ C') fun a => Q a ∧ Q' a := by
  induction p with
  | done | crash => exact ⟨h, g⟩
  | ask r next ih => exact ⟨⟨h.1, g.1⟩, fun x => ih x (h.2 x) (g.2 x)⟩

/-- A request of a job goes where the job does: it erases and reads its coverage data, puts a copy of
the helper in its place, and runs its commands in its directory, those of the helper from the copy. -/
def Request.GoesTo (home data copy : Path) : Request → Prop
  | removeFile p | readFile p => p = data
  | copyFile _ p | writeFile p _ | makeExecutable p => p = copy
  | command i | note (.command i) => i.cwd = home ∧ (i.IsHelper → i.program = copy.text)
  | service _ | download _ | note _ | wasAcquired _ | isPresent _ => True

theorem Request.GoesTo.hands {home data copy : Path} {r : Request} (goes : r.GoesTo home data copy) :
    r.Hands fun i => i.cwd = home ∧ (i.IsHelper → i.program = copy.text) := by
  cases r with
  | command i => exact Request.hands_command goes
  | note n =>
    cases n with
    | command i => exact Request.hands_command goes
    | session | acquired | closing => exact List.forall_mem_nil _
  | _ => exact List.forall_mem_nil _

namespace Helper

variable (h : Helper) (id : ReporterId) (scope : SessionScope) (data : Path)

theorem acquire_goesTo : (h.acquire (h.locationFor scope)).Obeys
    (Request.GoesTo scope.workdir data (h.locationFor scope)) False fun _ => True := by
  have fetch : (h.fetch (h.locationFor scope)).Obeys
      (Request.GoesTo scope.workdir data (h.locationFor scope)) False fun _ => True := by
    unfold Helper.fetch
    split
    · refine ⟨trivial, fun reply => ?_⟩
      rcases reply with e | content
      · trivial
      · refine ⟨rfl, fun reply => ?_⟩
        rcases reply with fault | ⟨⟨⟩⟩ <;> trivial
    · refine ⟨rfl, fun reply => ?_⟩
      rcases reply with fault | ⟨⟨⟩⟩ <;> trivial
  refine fetch.bind fun reply _ => ?_
  rcases reply with e | ⟨⟨⟩⟩
  · trivial
  · refine ⟨rfl, fun reply => ?_⟩
    rcases reply with fault | ⟨⟨⟩⟩ <;> trivial

theorem invoke_goesTo (args : List String) : (h.invoke args id scope).Obeys
    (Request.GoesTo scope.workdir data (h.locationFor scope)) False fun _ => True := by
  have asks := h.invoke_asks id scope args
  generalize h.invoke args id scope = p at asks ⊢
  refine asks.mono (fun r asked => ?_) False.elim fun _ _ => trivial
  obtain ⟨i, rfl, made⟩ := asked
  rw [h.eq_of_invocation id scope made]
  exact ⟨rfl, fun _ => rfl⟩

theorem opened_goesTo : (h.reporter.opened id scope).Obeys
    (Request.GoesTo scope.workdir data (h.locationFor scope)) False fun _ => True := by
  have eq : h.reporter.opened id scope = _ := h.openSession_eq id scope
  rw [eq]
  refine (h.acquire_goesTo scope data).bind fun reply _ => ?_
  rcases reply with e | ⟨⟨⟩⟩
  · trivial
  · have invoke := h.invoke_goesTo id scope data ["before-build"]
    rw [afterAcquiring]
    generalize h.invoke ["before-build"] id scope = p at invoke ⊢
    exact ⟨trivial, fun _ => invoke⟩

theorem closed_goesTo (code : Int) : (h.reporter.closed id scope code).Obeys
    (Request.GoesTo scope.workdir data (h.locationFor scope)) False fun _ => True := by
  have eq : h.reporter.closed id scope code = _ := h.closeSession_eq id scope code
  have invoke := h.invoke_goesTo id scope data ["after-build", "--exit-code", toString code]
  rw [eq]
  refine ⟨trivial, fun acquired => ?_⟩
  cases acquired with
  | false => trivial
  | true =>
    rw [afterAsking]
    generalize h.invoke ["after-build", "--exit-code", toString code] id scope = p at invoke ⊢
    exact invoke

end Helper

theorem PhaseKind.Names.not_isHelper (kind : PhaseKind) {i : Invocation} (named : kind.Names i)
    (plain : kind.isSession = false) : ¬i.IsHelper := by
  rintro (told | told)
  · obtain rfl : kind = .openSession := named.unique told
    cases plain
  · obtain rfl : kind = .closeSession := named.unique told
    cases plain

/-- A job that reports through the helper goes to its own places only. -/
theorem JobPipeline.standard_goesTo {ctx : JobContext} {stamp : Stamp} (c : Config) (helper : Helper)
    (fresh : ctx.resultCode = none ∧ ctx.aborted = false) (reports : ctx.reporter = helper.reporter) :
    ((standard c).run ctx stamp).Obeys (Request.GoesTo ctx.workdir ctx.findings.coverage.dataFile
      (helper.locationFor ctx.scope)) True fun _ => True := by
  refine (standard c).run_obeys
    (I := fun f => f.coverage.dataFile = ctx.findings.coverage.dataFile) fresh rfl ?_
  intro phase mem h f same
  have own {i : Invocation} (owns : (h.contextOf ctx f).Owns i) (other : ¬i.IsHelper) :
      (Request.command i).GoesTo ctx.workdir ctx.findings.coverage.dataFile
        (helper.locationFor ctx.scope) :=
    ⟨owns.cwd, fun told => absurd told other⟩
  simp only [standard, List.mem_cons, List.not_mem_nil, or_false] at mem
  rcases mem with rfl | rfl | rfl | rfl | rfl
  · have asks := Phase.install_obeys (h.contextOf ctx f) c.dependencies c.installers (C := True)
      fun i owns install => own owns (PhaseKind.Names.not_isHelper .install install rfl)
    exact asks.ends_mono fun r eq => (congrArg (·.coverage.dataFile) eq).trans same
  · have opened := helper.opened_goesTo ctx.reporterId (h.contextOf ctx f).scope
      ctx.findings.coverage.dataFile
    rw [← reports] at opened
    have asks := Phase.openSession_findings (h.contextOf ctx f) (C := True) trivial
      (opened.mono (fun _ goes => goes) False.elim fun _ ends => ends)
    exact asks.ends_mono fun r eq => (congrArg (·.coverage.dataFile) eq).trans same
  · have asks := Phase.testRun_obeys (h.contextOf ctx f) c.tests (C := True) same
      (fun i owns test => own owns (PhaseKind.Names.not_isHelper .testRun test rfl)) same
    exact asks.ends_mono fun r eq => eq.trans same
  · have closed := helper.closed_goesTo ctx.reporterId (h.contextOf ctx f).scope
      ctx.findings.coverage.dataFile (h.contextOf ctx f).closingCode
    rw [← reports] at closed
    have asks := Phase.closeSession_findings (h.contextOf ctx f) (C := True) trivial trivial
      (closed.mono (fun _ goes => goes) False.elim fun _ ends => ends)
    exact asks.ends_mono fun r eq => (congrArg (·.coverage.dataFile) eq).trans same
  · have asks := Phase.exportCoverage_obeys (h.contextOf ctx f) c.exports (C := True)
      (fun i owns exports =>
        own owns (PhaseKind.Names.not_isHelper .exportCoverage exports rfl)) trivial
    exact asks.ends_mono fun r eq => (congrArg (·.dataFile) eq).trans same

/-! ## The data file in the variables of commands -/

/-- A command is told where the data file is, unless the variable for it is also one that tells it
something later. The command of the tests always is. -/
theorem Invocation.RunsUnder.get?_coverageEnv {i : Invocation} {c : Config} {job : Job}
    {home cwd : Path} {code : Option Int} {id : ReporterId}
    (runs : i.RunsUnder home (c.settings cwd job ++ i.extras code c.reporter.idEnv id))
    (kept : i.IsTest ∨
      c.tests.coverageEnv ≠ testResultVariable ∧ c.tests.coverageEnv ≠ c.reporter.idEnv) :
    i.env.get? c.tests.coverageEnv =
      some (JobContext.dataFile (c.workdir.absolute cwd) c.tests job.id).text := by
  have hidden : (i.extras code c.reporter.idEnv id).reverse.lookup c.tests.coverageEnv = none := by
    rw [List.lookup_eq_none_iff]
    intro e mem
    rw [List.mem_reverse] at mem
    rcases kept with test | ⟨result, secret⟩
    · have label : i.label = "test suite" := test
      simp [Invocation.extras, label] at mem
    · rw [bne_iff_ne]
      simp only [Invocation.extras, resultSettings, List.mem_append] at mem
      rcases mem with mem | mem <;> split at mem
      · obtain ⟨n, -, rfl⟩ := List.mem_map.mp mem
        exact result
      · cases mem
      · obtain rfl := List.mem_singleton.mp mem
        exact secret
      · cases mem
  rw [runs.env, List.reverse_append, List.lookup_append, hidden, Option.none_or, Config.settings,
    List.reverse_append]
  exact EnvVars.lookup_cons_self _ _ _

/-! ## A matrix -/

namespace MatrixRunner

variable {c : Config} {id : ReporterId} {helper : Helper} {host : Host} {stamps : Nat → Stamp}
  {w v : World} {t : Trace} {endings : List JobEnding}

theorem lateCall_goesTo (host : Host) (job : Job) :
    let ctx := (standard c id helper.reporter).contextFor host.cwd.path job
    ((standard c id helper.reporter).lateCall host.cwd.path job).Obeys (Request.GoesTo ctx.workdir
      ctx.findings.coverage.dataFile (helper.locationFor ctx.scope)) True fun _ => True := by
  intro ctx
  have closed := helper.closed_goesTo id ctx.scope ctx.findings.coverage.dataFile setupFailureCode
  exact ⟨trivial, fun _ => closed.mono (fun _ goes => goes) False.elim fun _ ends => ends⟩

theorem Concluded.goesTo (h : (standard c id helper.reporter).Concluded host stamps w t endings v)
    {job : Job} (mem : job ∈ c.jobs) {x : Exchange} (made : (job.id, x) ∈ t) :
    let ctx := (standard c id helper.reporter).contextFor host.cwd.path job
    x.request.GoesTo ctx.workdir ctx.findings.coverage.dataFile (helper.locationFor ctx.scope) := by
  intro ctx
  obtain ⟨r, ended⟩ := h.exists_ending mem
  have own : x ∈ t.of job.id := by
    simpa [Trace.of] using made
  exact (h.follows job r ended).asks (JobPipeline.standard_goesTo c helper ⟨rfl, rfl⟩ rfl) x own

/-- What a command of a job is told of its places: the directory in which it runs and where its data
file is, and for the helper where its copy is. -/
structure PointsTo (c : Config) (ctx : JobContext) (copy : Path) (i : Invocation) : Prop where
  cwd : i.cwd = ctx.workdir
  program : i.IsHelper → i.program = copy.text
  data : i.IsTest ∨ c.tests.coverageEnv ≠ testResultVariable ∧
    c.tests.coverageEnv ≠ c.reporter.idEnv →
      i.env.get? c.tests.coverageEnv = some ctx.findings.coverage.dataFile.text

theorem get?_coverageEnv_start (c : Config) (job : Job) (id : ReporterId) (reporter : Reporter)
    (cwd : Path) :
    let ctx := JobContext.start c job id reporter cwd
    ctx.env.get? c.tests.coverageEnv = some ctx.findings.coverage.dataFile.text := by
  simp [JobContext.start]

theorem lateCall_pointsTo (id : ReporterId) (host : Host) (tells : helper.idEnv = c.reporter.idEnv)
    (job : Job) :
    let ctx := (standard c id helper.reporter).contextFor host.cwd.path job
    ((standard c id helper.reporter).lateCall host.cwd.path job).Obeys
      (Request.Hands (PointsTo c ctx (helper.locationFor ctx.scope))) True fun _ => True := by
  intro ctx
  have both := (lateCall_tells (m := standard c id helper.reporter) rfl host.cwd.path job).and
    (lateCall_goesTo (c := c) host job)
  refine both.mono (fun r asked i mem => ?_) (fun _ => trivial) fun _ _ => trivial
  have told := asked.1 i mem
  refine ⟨told.cwd, (asked.2.hands i mem).2, fun kept => ?_⟩
  rcases kept with test | ⟨-, secret⟩
  · have same : "reporter after-build" = "test suite" := told.label.symm.trans test
    simp at same
  · have other : ¬c.tests.coverageEnv = helper.idEnv := tells ▸ secret
    rw [told.env, EnvVars.get?_insert, if_neg other]
    exact get?_coverageEnv_start c job id helper.reporter host.cwd.path

/-- Every command that a matrix hands over is told of the places of one of its jobs. -/
theorem Concluded.pointsTo (h : (standard c id helper.reporter).Concluded host stamps w t endings v)
    (tells : helper.idEnv = c.reporter.idEnv) :
    ∃ made, ((standard c id helper.reporter).settle host stamps endings v).2.invocations =
        w.invocations ++ made ∧
      ∀ i ∈ made, ∃ job ∈ c.jobs,
        let ctx := (standard c id helper.reporter).contextFor host.cwd.path job
        PointsTo c ctx (helper.locationFor ctx.scope) i := by
  obtain ⟨more, all, late⟩ := settle_hands stamps endings v fun job =>
    lateCall_pointsTo id host tells job
  refine ⟨commandsOf t.notes ++ more, by rw [all, h.invocations, List.append_assoc],
    fun i mem => ?_⟩
  rcases List.mem_append.mp mem with mem | mem
  · obtain ⟨job, own, u, x, u', split, handed⟩ := h.exists_exchange mem
    obtain ⟨runs, -⟩ := h.runsUnder tells own split i handed
    obtain ⟨cwd, program⟩ := (h.goesTo own (by simp [split])).hands i handed
    exact ⟨job, own, cwd, program, runs.get?_coverageEnv⟩
  · obtain ⟨job, ended, points⟩ := late i mem
    exact ⟨job, h.mem_jobs ended, points⟩

/-- The working directory of a job, its data file and the copy of the helper that it runs are absolute
paths, but for the first two where the working directory of the configuration is the empty path; the
data file is absolute then too if that of the configuration is. Whatever the command runner does and
in whatever order the jobs of a valid matrix take their steps, a job erases and collects nothing but
its data file and puts nothing in place but its copy of the helper; each of its commands runs in its
working directory, the helper's from that copy, and those that are told of the data file are told its
path. From the empty path no command can be started; so whatever file a command finds at one of these
paths is the one that the job itself goes to. -/
theorem paths_resolve_once (c : Config) (id : ReporterId) (host : Host) (stamps : Nat → Stamp)
    (w w' : World) (t : Trace) (out : Option (Except PipelineError MatrixResult))
    (valid : c.validate = .ok ())
    (ends : (standard c id (Helper.ofConfig c.reporter host.cwd.path).reporter).Ends host stamps w t
      out w') :
    let helper := Helper.ofConfig c.reporter host.cwd.path
    let start := fun job => JobContext.start c job id helper.reporter host.cwd.path
    let data := fun job => (start job).findings.coverage.dataFile
    let copy := fun job => helper.locationFor (start job).scope
    (∀ job,
      ((start job).workdir.isAbsolute = true ↔ c.workdir.text ≠ "") ∧
      ((data job).isAbsolute = true ↔
        c.tests.coverageFile.isAbsolute = true ∨ c.workdir.text ≠ "") ∧
      (copy job).isAbsolute = true ∧
      (start job).env.get? c.tests.coverageEnv = some (data job).text) ∧
    (∀ name x, (name, x) ∈ t → ∃ job ∈ c.jobs, job.id = name ∧
      x.request.GoesTo (start job).workdir (data job) (copy job)) ∧
    ∃ made, w'.invocations = w.invocations ++ made ∧ ∀ i ∈ made, ∃ job ∈ c.jobs,
      PointsTo c (start job) (copy job) i ∧
      ∀ env files there loaded, Shell.prepare host.cwd env files i = .ok (there, loaded) →
        c.workdir.text ≠ "" ∧ Files.SameFrom there host.cwd (data job) ∧
          Files.SameFrom there host.cwd (copy job) := by
  intro helper start data copy
  have here : helper.cwd = host.cwd.path := rfl
  have workdir (job : Job) : (start job).workdir.isAbsolute = true ↔ c.workdir.text ≠ "" :=
    JobContext.isAbsolute_workdir_start c job id helper.reporter host.cwd
  have absolute (job : Job) : (data job).isAbsolute = true ↔
      c.tests.coverageFile.isAbsolute = true ∨ c.workdir.text ≠ "" := by
    rw [← workdir job, ← Bool.or_eq_true]
    exact Bool.eq_iff_iff.mp (JobContext.isAbsolute_dataFile (start job).workdir c.tests job.id)
  have placed (job : Job) : (copy job).isAbsolute = true := helper.isAbsolute_locationFor _ here
  have once (job : Job) (i : Invocation) (points : PointsTo c (start job) (copy job) i) (env : EnvVars)
      (files : Files.Tree) (there : Files.Location) (loaded : Shell.Loader.Loaded)
      (started : Shell.prepare host.cwd env files i = .ok (there, loaded)) :
      c.workdir.text ≠ "" ∧ Files.SameFrom there host.cwd (data job) ∧
        Files.SameFrom there host.cwd (copy job) := by
    have named : (start job).workdir.text ≠ "" := points.cwd ▸ Shell.text_ne_of_prepare started
    have some : c.workdir.text ≠ "" := fun empty =>
      named ((congrArg Path.text (Path.absolute_of_empty empty host.cwd.path)).trans empty)
    exact ⟨some, Files.sameFrom_of_isAbsolute ((absolute job).mpr (.inr some)) _ _,
      Files.sameFrom_of_isAbsolute (placed job) _ _⟩
  refine ⟨fun job => ⟨workdir job, absolute job, placed job,
    get?_coverageEnv_start c job id helper.reporter host.cwd.path⟩, ?_⟩
  rcases ends.unpermitted_or_concluded valid with ⟨rfl, rfl, rfl⟩ | ⟨endings, v, concluded, rfl⟩
  · exact ⟨fun name x mem => absurd mem List.not_mem_nil,
      [], (List.append_nil _).symm, List.forall_mem_nil _⟩
  · refine ⟨fun name x mem => ?_, ?_⟩
    · obtain ⟨job, own, rfl⟩ := concluded.named _ mem
      exact ⟨job, own, rfl, concluded.goesTo own mem⟩
    · obtain ⟨made, all, each⟩ := concluded.pointsTo rfl
      refine ⟨made, all, fun i mem => ?_⟩
      obtain ⟨job, own, points⟩ := each i mem
      exact ⟨job, own, points, once job i points⟩

/-- A matrix whose working directory is the empty path. -/
def placelessJobs : Config :=
  { twoJobs with workdir := ⟨""⟩ }

/-- The data file of such a matrix is a relative path, and none of its commands can be started. -/
theorem paths_resolve_once_placeless :
    let helper := Helper.ofConfig placelessJobs.reporter ⟨"/"⟩
    let m := standard placelessJobs ⟨"token"⟩ helper.reporter
    let stamps : Nat → Stamp := fun _ => ⟨"run", "now"⟩
    let w : World := ⟨⟨[]⟩, []⟩
    placelessJobs.validate = .ok () ∧
    (∀ job ∈ placelessJobs.jobs,
      (m.contextFor ⟨"/"⟩ job).findings.coverage.dataFile.isAbsolute = false) ∧
    ∃ t out w', m.Ends (patchyHost "2.7") stamps w t out w' ∧ w'.invocations ≠ [] ∧
      ∀ i ∈ w'.invocations, ∀ env files, ¬(Shell.prepare [] env files i).isOk := by
  intro helper m stamps w
  have valid : placelessJobs.validate = .ok () := by rfl
  have computed : (m.run (patchyHost "2.7") stamps w).2.invocations ≠ [] := by
    decide +kernel
  obtain ⟨t, ends⟩ := m.ends_run (patchyHost "2.7") stamps w (by decide)
  obtain ⟨each, -, made, all, once⟩ := paths_resolve_once placelessJobs ⟨"token"⟩ (patchyHost "2.7")
    stamps w _ t _ valid ends
  refine ⟨valid, fun job _ => ?_, t, _, _, ends, computed, fun i mem env files => ?_⟩
  · obtain ⟨-, data, -⟩ := each job
    refine Bool.eq_false_iff.mpr fun absolute => ?_
    rcases data.mp absolute with relative | some
    · exact absurd relative (by decide)
    · exact some rfl
  · have none : w.invocations = [] := rfl
    rw [all, none, List.nil_append] at mem
    obtain ⟨job, -, -, started⟩ := once i mem
    intro ok
    cases prepared : Shell.prepare [] env files i with
    | error fault =>
      rw [prepared] at ok
      cases ok
    | ok both => exact (started env files both.1 both.2 prepared).1 rfl

end MatrixRunner
end CoverageMatrix
