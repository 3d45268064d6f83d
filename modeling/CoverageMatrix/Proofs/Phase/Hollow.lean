import CoverageMatrix.Proofs.Job.Plan
import CoverageMatrix.Proofs.Matrix.Jobs
import CoverageMatrix.Proofs.Phase.Install
import CoverageMatrix.Proofs.Text.Substitute

/-!
# Commands that name no program

A valid configuration has a word in each of its commands. That word is a template: a job may fill it
in so that nothing is left of it, and then the command has no program. Here are the words that this
happens to (`Config.Vanishes`), and the phases that it makes fail.
-/
namespace CoverageMatrix

/-! ## Words of which nothing is left -/

namespace Config

/-- Nothing is left of a word in the jobs of a configuration: it is empty, or made of placeholders
for an interpreter that has no name. -/
def Vanishes (c : Config) (word : String) : Prop :=
  word = "" ∨
    c.matrix.interpreter = "" ∧ ∃ k, word = String.join (List.replicate k "\x7binterpreter\x7d")

/-- A command whose program vanishes, or that has no words at all. -/
def IsHollow (c : Config) (template : CommandTemplate) : Prop :=
  ∀ word ∈ template.head?, c.Vanishes word

variable {c : Config} {job : Job}

theorem renderArg_eq_empty_iff (valid : c.IsValid) (mem : job ∈ c.jobs) {word : String} :
    job.renderArg word = "" ↔ c.Vanishes word := by
  obtain ⟨place, version, listed, rfl⟩ := exists_of_mem_jobsFrom mem
  have version_ne : version ≠ "" := by
    rintro rfl
    cases valid.named "" listed
  have id_ne : c.matrix.interpreter ++ "-" ++ version ≠ "" := by simp
  -- the version and the name of a job are never empty, so that only the interpreter may vanish
  have filled : (c.job place version).renderArg word =
      Text.replace "\x7bjob\x7d" (c.matrix.interpreter ++ "-" ++ version)
        (Text.replace "\x7bversion\x7d" version
          (Text.replace "\x7binterpreter\x7d" c.matrix.interpreter word)) := rfl
  rw [filled, Text.replace_eq_empty_iff_of_ne (by decide) id_ne,
    Text.replace_eq_empty_iff_of_ne (by decide) version_ne,
    Text.replace_eq_empty_iff (by decide), Vanishes]
  constructor
  · rintro ⟨k, rfl, rfl | nameless⟩
    · exact .inl rfl
    · exact .inr ⟨nameless, k, rfl⟩
  · rintro (rfl | ⟨nameless, k, rfl⟩)
    · exact ⟨0, rfl, .inl rfl⟩
    · exact ⟨k, rfl, .inr nameless⟩

theorem invocation_of_isHollow (valid : c.IsValid) {ctx : JobContext} (own : ctx.job ∈ c.jobs)
    (label : String) {template : CommandTemplate} (hollow : c.IsHollow template) :
    ctx.invocation label template = .error (.emptyCommand label) := by
  rw [JobContext.invocation_eq, Job.render]
  cases template with
  | nil => rfl
  | cons word words =>
    have gone := (renderArg_eq_empty_iff valid own).mpr (hollow word rfl)
    rw [List.map_cons, gone]
    exact if_pos rfl

theorem invocation_of_not_isHollow (valid : c.IsValid) {ctx : JobContext} (own : ctx.job ∈ c.jobs)
    (label : String) {template : CommandTemplate} (solid : ¬c.IsHollow template) :
    ∃ i, ctx.invocation label template = .ok i ∧ i.argv = ctx.job.render template ∧
      i.program ≠ "" := by
  rw [JobContext.invocation_eq, Job.render]
  cases template with
  | nil => exact absurd (fun _ => nofun) solid
  | cons word words =>
    have left : ctx.job.renderArg word ≠ "" := fun gone => solid fun _ eq =>
      Option.some.inj eq ▸ (renderArg_eq_empty_iff valid own).mp gone
    rw [List.map_cons]
    exact ⟨_, if_neg left, rfl, left⟩

end Config

/-! ## What the phases say of them -/

/-- The commands that the phases of a kind run in the standard pipeline. -/
def Config.phaseCommands (c : Config) : PhaseKind → List CommandTemplate :=
  PhaseKind.select
    ((InstallTask.reference c.installers c.dependencies).filterMap (·.argv? c.installers)) []
    [c.tests.template] [] [c.exports.command]

/-- A phase may fail because a command names no program. -/
def Phase.MayFindEmpty (phase : Phase) (ctx : JobContext) : Prop :=
  ∃ t label findings,
    (phase.run ctx).Follows t (some (.failed (PipelineError.emptyCommand label).message, findings))

/-- The first character of a text. -/
def Text.first? (text : String) : Option Char :=
  text.toList.head?

theorem Text.first?_append {text more : String} {first : Char} (h : first? text = some first) :
    first? (text ++ more) = some first := by
  rw [first?, String.toList_append, List.head?_append]
  rw [first?] at h
  rw [h]
  rfl

theorem PipelineError.ne_emptyCommand_message {text label : String} {first : Char}
    (h : Text.first? text = some first) (other : first ≠ 'E') :
    text ≠ (emptyCommand label).message := by
  have message_eq : (emptyCommand label).message = "Empty command for " ++ label := rfl
  have begins : Text.first? ("Empty command for " ++ label) = some 'E' := Text.first?_append rfl
  rintro rfl
  rw [message_eq, begins] at h
  exact other (Option.some.inj h).symm

theorem PhaseOutcome.failed_append_ne {start rest label : String} {first : Char}
    (h : Text.first? start = some first) (other : first ≠ 'E') :
    failed (start ++ rest) ≠ failed (PipelineError.emptyCommand label).message := fun same =>
  PipelineError.ne_emptyCommand_message (Text.first?_append h) other (failed.inj same)

namespace InstallTask

variable {c : Config.Installers} {ctx : JobContext}

theorem exists_first?_title (task : InstallTask) :
    ∃ first, Text.first? task.title = some first ∧ first ≠ 'E' := by
  cases task with
  | refresh => exact ⟨'s', rfl, by decide⟩
  | action place a =>
    have begins : Text.first? "install action " = some 'i' := rfl
    exact ⟨'i', Text.first?_append (Text.first?_append (Text.first?_append
      (Text.first?_append begins))), by decide⟩

theorem complaint_ne_emptyCommand_message (task : InstallTask)
    (reply : Except PipelineError CommandOutput) (label : String) :
    task.complaint reply ≠ (PipelineError.emptyCommand label).message := by
  obtain ⟨first, begins, other⟩ := task.exists_first?_title
  refine PipelineError.ne_emptyCommand_message ?_ other
  rcases reply with e | output
  · exact Text.first?_append (Text.first?_append begins)
  · exact Text.first?_append (Text.first?_append begins)

theorem of_mem_reference {actions : List InstallAction} {task : InstallTask}
    (mem : task ∈ reference c actions) :
    (task = refresh ∧ c.system.refresh ≠ []) ∨ ∃ place, ∃ a ∈ actions, task = action place a := by
  cases task with
  | refresh => exact .inl ⟨rfl, ((refresh_mem_iff actions).mp mem).1⟩
  | action place a =>
    have listed : action place a ∈ declared actions := by
      rcases List.mem_append.mp mem with mem | mem
      · rcases List.mem_append.mp mem with mem | mem
        · exact List.mem_of_mem_take mem
        · split at mem <;> simp at mem
      · exact List.mem_of_mem_drop mem
    obtain ⟨⟨b, n⟩, mem, eq⟩ := List.mem_map.mp listed
    cases eq
    exact .inr ⟨place, a, List.fst_mem_of_mem_zipIdx mem, rfl⟩

/-- As long as there is a command for every task, each of them may be reached; and so may the first
that there is none for. -/
theorem exists_concludes_stuck {tasks : List InstallTask}
    (missing : ∃ task ∈ tasks, task.command? c ctx = none) :
    ∃ task ∈ tasks, task.command? c ctx = none ∧
      ∃ t, Concludes c ctx tasks t (.failed (task.obstacle c)) := by
  induction tasks with
  | nil => simp at missing
  | cons task rest ih =>
    cases command : task.command? c ctx with
    | none =>
      exact ⟨task, List.mem_cons_self, command, [],
        .stuck (List.nil_append (task :: rest)).symm .nil command⟩
    | some i =>
      have later : ∃ task ∈ rest, task.command? c ctx = none := by simpa [command] using missing
      obtain ⟨next, mem, none, t, concludes⟩ := ih later
      have succeeds : Succeeds c ctx task ⟨.command i, some (.ok ⟨0, "", "", 0⟩)⟩ :=
        ⟨i, _, command, rfl, rfl⟩
      exact ⟨next, List.mem_cons_of_mem _ mem, none, _, concludes.cons succeeds⟩

end InstallTask

section
variable {c : Config} {ctx : JobContext}

theorem InstallTask.exists_argv (valid : c.IsValid) {task : InstallTask}
    (mem : task ∈ reference c.installers c.dependencies) :
    ∃ template, task.argv? c.installers = some template ∧ template ≠ [] := by
  rcases of_mem_reference mem with ⟨rfl, words⟩ | ⟨place, a, listed, rfl⟩
  · exact ⟨_, rfl, words⟩
  · obtain ⟨target, clear⟩ := valid.targets a listed
    obtain ⟨installer, package, path⟩ := a
    cases package <;> cases path
    · cases clear
    · exact ⟨_, rfl, by simp⟩
    · exact ⟨_, rfl, by simp⟩
    · cases clear

theorem InstallTask.command?_eq_none_iff (valid : c.IsValid) (own : ctx.job ∈ c.jobs)
    {task : InstallTask} {template : CommandTemplate}
    (made : task.argv? c.installers = some template) :
    task.command? c.installers ctx = none ↔ c.IsHollow template := by
  have same := @invocation_of_argv _ ctx _ _ made
  by_cases hollow : c.IsHollow template
  · rw [Config.invocation_of_isHollow valid own _ hollow] at same
    refine iff_of_true ?_ hollow
    cases command : task.command? c.installers ctx with
    | none => rfl
    | some i =>
      rw [command] at same
      cases same
  · obtain ⟨i, invocation, -⟩ := Config.invocation_of_not_isHollow valid own task.title hollow
    rw [invocation] at same
    refine iff_of_false (fun none => ?_) hollow
    rw [none] at same
    cases same

namespace Phase

theorem install_mayFindEmpty_iff (valid : c.IsValid) (own : ctx.job ∈ c.jobs) :
    (install c.dependencies c.installers).MayFindEmpty ctx ↔
      ∃ template ∈ c.phaseCommands .install, c.IsHollow template := by
  have commands (template : CommandTemplate) : template ∈ c.phaseCommands .install ↔
      ∃ task ∈ InstallTask.reference c.installers c.dependencies,
        task.argv? c.installers = some template := List.mem_filterMap
  constructor
  · rintro ⟨t, label, findings, follows⟩
    obtain ⟨-, concludes⟩ := follows_install_iff.mp follows
    generalize reason : (PipelineError.emptyCommand label).message = r at concludes
    cases concludes with
    | failing => exact absurd reason.symm (InstallTask.complaint_ne_emptyCommand_message _ _ _)
    | @stuck before after task _ split ran missing =>
      have mem : task ∈ InstallTask.reference c.installers c.dependencies := by simp [split]
      obtain ⟨template, made, -⟩ := InstallTask.exists_argv valid mem
      exact ⟨template, (commands _).mpr ⟨task, mem, made⟩,
        (InstallTask.command?_eq_none_iff valid own made).mp missing⟩
  · rintro ⟨template, mem, hollow⟩
    obtain ⟨task, mem, made⟩ := (commands _).mp mem
    have missing := (InstallTask.command?_eq_none_iff valid own made).mpr hollow
    obtain ⟨stuck, mem, -, t, concludes⟩ := InstallTask.exists_concludes_stuck ⟨task, mem, missing⟩
    obtain ⟨words, made, -⟩ := InstallTask.exists_argv valid mem
    rw [InstallTask.obstacle_of_argv made] at concludes
    exact ⟨t, stuck.title, ctx.findings, follows_install_iff.mpr ⟨rfl, concludes⟩⟩

theorem not_mayFindEmpty {phase : Phase} (obeys : (phase.run ctx).Obeys (fun _ => True) True fun r =>
    ∀ label, r.1 ≠ .failed (PipelineError.emptyCommand label).message) :
    ¬phase.MayFindEmpty ctx :=
  fun ⟨_, label, _, follows⟩ => follows.ends obeys label rfl

theorem openSession_finds_nothing_empty (ctx : JobContext) : ¬openSession.MayFindEmpty ctx := by
  refine not_mayFindEmpty ⟨trivial, fun _ => (Program.obeys_true _).bind fun reply _ => ?_⟩
  rcases reply with e | ⟨⟨⟩⟩
  · exact fun _ => PhaseOutcome.failed_append_ne rfl (by decide)
  · exact fun _ => nofun

theorem closeSession_finds_nothing_empty (ctx : JobContext) : ¬closeSession.MayFindEmpty ctx := by
  refine not_mayFindEmpty
    ⟨trivial, fun _ => ⟨trivial, fun _ => (Program.obeys_true _).bind fun reply _ => ?_⟩⟩
  rcases reply with e | ⟨⟨⟩⟩
  · exact fun _ => PhaseOutcome.failed_append_ne rfl (by decide)
  · exact fun _ => nofun

theorem testRun_mayFindEmpty_iff (valid : c.IsValid) (own : ctx.job ∈ c.jobs) :
    (testRun c.tests).MayFindEmpty ctx ↔ c.IsHollow c.tests.template := by
  by_cases hollow : c.IsHollow c.tests.template
  · have invocation := Config.invocation_of_isHollow valid own "test suite" hollow
    refine iff_of_true ⟨[⟨.removeFile ctx.findings.coverage.dataFile, some (.ok ())⟩], "test suite",
      { ctx.findings with
        coverage := { ctx.findings.coverage with erased := true, dataset := none } }, ?_⟩ hollow
    refine .answered ?_
    simp only [Program.bind]
    rw [invocation]
    exact .done _
  · obtain ⟨i, invocation, -⟩ := Config.invocation_of_not_isHollow valid own "test suite" hollow
    refine iff_of_false (not_mayFindEmpty ?_) hollow
    refine (Program.obeys_true _).bind fun erased _ => ?_
    rcases erased with ⟨e | ⟨⟨⟩⟩, coverage⟩
    · exact fun _ => PhaseOutcome.failed_append_ne rfl (by decide)
    · dsimp only
      rw [invocation]
      refine ⟨trivial, fun reply => (Program.obeys_true (CoverageState.collect _)).bind ?_⟩
      intro collected _ _ same
      cases same

theorem exportCoverage_mayFindEmpty_iff (valid : c.IsValid) (own : ctx.job ∈ c.jobs) :
    (exportCoverage c.exports).MayFindEmpty ctx ↔ c.IsHollow c.exports.command := by
  by_cases hollow : c.IsHollow c.exports.command
  · refine iff_of_true ⟨[], "coverage export", ctx.findings, ?_⟩ hollow
    unfold exportCoverage
    dsimp only
    rw [Config.invocation_of_isHollow valid own "coverage export" hollow]
    exact .done _
  · obtain ⟨i, invocation, -⟩ :=
      Config.invocation_of_not_isHollow valid own "coverage export" hollow
    refine iff_of_false (not_mayFindEmpty ?_) hollow
    unfold exportCoverage
    dsimp only
    rw [invocation]
    refine ⟨trivial, fun reply => ?_⟩
    rcases reply with e | output
    · exact fun _ => PhaseOutcome.failed_append_ne rfl (by decide)
    · simp only [Program.bind]
      split
      · refine ⟨trivial, fun isPresent => ?_⟩
        cases isPresent <;> exact fun _ same => PhaseOutcome.noConfusion same
      · exact fun _ => PhaseOutcome.failed_append_ne rfl (by decide)

end Phase

theorem Config.ne_nil_of_mem_phaseCommands (valid : c.IsValid) {kind : PhaseKind}
    {template : CommandTemplate} (mem : template ∈ c.phaseCommands kind) : template ≠ [] := by
  have required (name : String) {words : CommandTemplate}
      (listed : (name, words) ∈ c.requiredCommands) : words ≠ [] := valid.commands _ listed
  cases kind with
  | install =>
    obtain ⟨task, mem, made⟩ := List.mem_filterMap.mp mem
    obtain ⟨words, made', some⟩ := InstallTask.exists_argv valid mem
    cases made.symm.trans made'
    exact some
  | testRun =>
    rw [List.mem_singleton.mp mem, Config.Tests.template]
    exact List.append_ne_nil_of_left_ne_nil (required "tests.command" (by simp [requiredCommands])) _
  | exportCoverage =>
    rw [List.mem_singleton.mp mem]
    exact required "export.command" (by simp [requiredCommands])
  | openSession | closeSession => cases mem

/-- A valid configuration has a command for each thing that its jobs install, and no command without
words. A command whose program does not vanish can be run. Where one vanishes, its phase may fail for
this reason, and a phase without such a command never does. -/
theorem JobPipeline.standard_finds_empty_iff (c : Config) (valid : c.validate = .ok ())
    (ctx : JobContext) (own : ctx.job ∈ c.jobs) :
    (∀ task ∈ InstallTask.reference c.installers c.dependencies,
      (task.argv? c.installers).isSome) ∧
    (∀ kind, ∀ template ∈ c.phaseCommands kind, template ≠ []) ∧
    (∀ label template,
      (c.IsHollow template → ctx.invocation label template = .error (.emptyCommand label)) ∧
      (¬c.IsHollow template → ∃ i, ctx.invocation label template = .ok i ∧
        i.argv = ctx.job.render template ∧ i.program ≠ "")) ∧
    ∀ phase ∈ (standard c).phases,
      phase.MayFindEmpty ctx ↔ ∃ template ∈ c.phaseCommands phase.kind, c.IsHollow template := by
  have valid := Config.validate_eq_ok_iff.mp valid
  refine ⟨fun task mem => ?_, fun kind template => Config.ne_nil_of_mem_phaseCommands valid,
    fun label template => ⟨Config.invocation_of_isHollow valid own label,
      Config.invocation_of_not_isHollow valid own label⟩, fun phase mem => ?_⟩
  · obtain ⟨template, made, -⟩ := InstallTask.exists_argv valid mem
    rw [made]
    rfl
  · have only (template : CommandTemplate) :
        (∃ words ∈ [template], c.IsHollow words) ↔ c.IsHollow template := by simp
    have nothing : ¬∃ words ∈ ([] : List CommandTemplate), c.IsHollow words := by simp
    simp only [standard, List.mem_cons, List.not_mem_nil, or_false] at mem
    rcases mem with rfl | rfl | rfl | rfl | rfl
    · exact Phase.install_mayFindEmpty_iff valid own
    · exact iff_of_false (Phase.openSession_finds_nothing_empty ctx) nothing
    · exact (Phase.testRun_mayFindEmpty_iff valid own).trans (only _).symm
    · exact iff_of_false (Phase.closeSession_finds_nothing_empty ctx) nothing
    · exact (Phase.exportCoverage_mayFindEmpty_iff valid own).trans (only _).symm

/-- The command of the tests is a single empty word. -/
def namelessTests : Config where
  tests := { command := [""] }

/-- The configuration passes every check, and still its tests cannot be run. -/
theorem JobPipeline.standard_finds_empty_iff_nameless :
    namelessTests.validate = .ok () ∧
      let job := namelessTests.job 1 "2.7"
      job ∈ namelessTests.jobs ∧
        (Phase.testRun namelessTests.tests).MayFindEmpty
          (.start namelessTests job ⟨"token"⟩ .noop ⟨"/work"⟩) := by
  have valid : namelessTests.validate = .ok () := rfl
  have own : namelessTests.job 1 "2.7" ∈ namelessTests.jobs := List.mem_singleton_self _
  have hollow : namelessTests.IsHollow namelessTests.tests.template := by
    intro word first
    cases first
    exact .inl rfl
  obtain ⟨-, -, -, phases⟩ := standard_finds_empty_iff namelessTests valid
    (.start namelessTests (namelessTests.job 1 "2.7") ⟨"token"⟩ .noop ⟨"/work"⟩) own
  have tests := phases (.testRun namelessTests.tests) (by simp [standard])
  exact ⟨valid, own, tests.mpr ⟨_, List.mem_singleton_self _, hollow⟩⟩

end
end CoverageMatrix
