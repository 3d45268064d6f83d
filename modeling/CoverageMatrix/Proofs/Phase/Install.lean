import CoverageMatrix.Matrix.Expand
import CoverageMatrix.Proofs.Phase.Requests
import CoverageMatrix.Proofs.Phase.Standard
import Mathlib.Data.List.Forall2

/-!
# What an installation runs

The order in which dependencies are to be installed is written down here without a loop: the actions
as they are declared, and right before the first one of the system's installer the refreshing of its
package index (`InstallTask.reference`). Both loops of the phase go by it. The one that describes an
installation lists the lines of these tasks (`Phase.describe_install`). The one that runs it runs
their commands in this order until one of them fails or there is none for a task
(`InstallTask.Concludes`).
-/
namespace CoverageMatrix

/-- What a command of an installation is for. -/
inductive InstallTask where
  | refresh
  /-- The action that stands at a place in the list, counted from one. -/
  | action (place : Nat) (a : InstallAction)
deriving DecidableEq

namespace InstallTask

/-! ## The tasks in their order -/

section
variable (c : Config.Installers)

/-- The actions as they are declared, each with its place in the list. -/
def declared (actions : List InstallAction) : List InstallTask :=
  (actions.zipIdx 1).map fun (a, place) => action place a

/-- The tasks of an installation: the actions, and right before the first of the system's installer
the refreshing of its index, if there is a command for it. -/
def reference (actions : List InstallAction) : List InstallTask :=
  let first := actions.findIdx (·.installer = .system)
  let refreshing := if first < actions.length ∧ c.system.refresh ≠ [] then [refresh] else []
  (declared actions).take first ++ refreshing ++ (declared actions).drop first

/-- The words of a task's command. An action has to have exactly one target. -/
def argv? : InstallTask → Option CommandTemplate
  | refresh => some c.system.refresh
  | action _ a =>
    match a.package.toList ++ (a.path.map Path.text).toList with
    | [target] => some (c.commandFor a.installer ++ [target])
    | _ => none

/-- What a task is called in complaints about it. -/
def title : InstallTask → String
  | refresh => "system package index refresh"
  | action place a => "install action " ++ toString place ++ " (" ++ a.label ++ ")"

/-- The command of a task: its words with the values of the job filled in, of which the first has to
name a program. -/
def command? (ctx : JobContext) (task : InstallTask) : Option Invocation :=
  match (task.argv? c).map ctx.job.render with
  | some (program :: args) =>
    if program = "" then none
    else some ⟨task.title, program, args, ctx.env, ctx.workdir, 0⟩
  | _ => none

/-- The installer that a task needs. -/
def installer : InstallTask → Installer
  | refresh => .system
  | action _ a => a.installer

/-- What a plan says of a task: its words with the values of the job filled in, in one line. -/
def line (job : Job) (task : InstallTask) : String :=
  match task.argv? c with
  | some argv => String.intercalate " " (job.render argv)
  | none =>
    "<invalid: " ++ (PipelineError.invalidConfig (.unclearTarget task.installer)).message ++ ">"

/-- Why there is no command for a task. -/
def obstacle (task : InstallTask) : String :=
  if (task.argv? c).isSome then "Empty command for " ++ task.title
  else
    task.title ++ ": " ++ (PipelineError.invalidConfig (.unclearTarget task.installer)).message

end

/-! ## Their outcome -/

/-- What is said of a task whose command was answered by something else than an exit with zero. -/
def complaint (task : InstallTask) : Except PipelineError CommandOutput → String
  | .ok output => task.title ++ " exited with code " ++ toString output.exitCode
  | .error e => task.title ++ ": " ++ e.message

variable {c : Config.Installers} {ctx : JobContext}

/-- In this exchange the command of a task was run and ended with zero. -/
def Succeeds (c : Config.Installers) (ctx : JobContext) (task : InstallTask) (e : Exchange) : Prop :=
  ∃ i output, task.command? c ctx = some i ∧ e = ⟨.command i, some (.ok output)⟩ ∧
    output.exitCode = 0

/-- How tasks that are taken on in their order come to an outcome, and the exchanges of the commands
that are run for them. -/
inductive Concludes (c : Config.Installers) (ctx : JobContext) (tasks : List InstallTask) :
    Transcript → PhaseOutcome → Prop
  /-- All commands were run and ended with zero. -/
  | all {t : Transcript} (ran : List.Forall₂ (Succeeds c ctx) tasks t) :
    Concludes c ctx tasks t .passed
  /-- The last command that was run did not end with zero. -/
  | failing {before after : List InstallTask} {task : InstallTask} {t : Transcript} {i : Invocation}
    {reply : Except PipelineError CommandOutput} (split : tasks = before ++ task :: after)
    (ran : List.Forall₂ (Succeeds c ctx) before t) (command : task.command? c ctx = some i)
    (failed : ∀ output, reply = .ok output → output.exitCode ≠ 0) :
    Concludes c ctx tasks (t ++ [⟨.command i, some reply⟩]) (.failed (task.complaint reply))
  /-- There is no command for the task that comes next. -/
  | stuck {before after : List InstallTask} {task : InstallTask} {t : Transcript}
    (split : tasks = before ++ task :: after) (ran : List.Forall₂ (Succeeds c ctx) before t)
    (missing : task.command? c ctx = none) :
    Concludes c ctx tasks t (.failed (task.obstacle c))

theorem Concludes.cons {task : InstallTask} {e : Exchange} {rest : List InstallTask}
    {t : Transcript} {o : PhaseOutcome} (first : Succeeds c ctx task e)
    (h : Concludes c ctx rest t o) : Concludes c ctx (task :: rest) (e :: t) o := by
  cases h with
  | all ran => exact .all (.cons first ran)
  | failing split ran command failed =>
    have longer := congrArg (task :: ·) split
    exact .failing longer (.cons first ran) command failed
  | stuck split ran missing =>
    have longer := congrArg (task :: ·) split
    exact .stuck longer (.cons first ran) missing

theorem concludes_nil_iff {t : Transcript} {o : PhaseOutcome} :
    Concludes c ctx [] t o ↔ t = [] ∧ o = .passed := by
  constructor
  · rintro (ran | ⟨split, -, -, -⟩ | ⟨split, -, -⟩)
    · cases ran
      exact ⟨rfl, rfl⟩
    · simp at split
    · simp at split
  · rintro ⟨rfl, rfl⟩
    exact .all .nil

/-- The first task decides: its command succeeds and the others go on, or it is the last. -/
theorem concludes_cons_iff {task : InstallTask} {rest : List InstallTask} {t : Transcript}
    {o : PhaseOutcome} : Concludes c ctx (task :: rest) t o ↔
      (∃ e u, t = e :: u ∧ Succeeds c ctx task e ∧ Concludes c ctx rest u o) ∨
      (∃ i reply, task.command? c ctx = some i ∧ t = [⟨.command i, some reply⟩] ∧
        (∀ output, reply = .ok output → output.exitCode ≠ 0) ∧
        o = .failed (task.complaint reply)) ∨
      task.command? c ctx = none ∧ t = [] ∧ o = .failed (task.obstacle c) := by
  constructor
  · intro h
    cases h with
    | all ran =>
      cases ran with
      | cons first ran => exact .inl ⟨_, _, rfl, first, .all ran⟩
    | @failing before after _ _ i reply split ran command failed =>
      cases ran with
      | nil =>
        cases split
        exact .inr (.inl ⟨i, reply, command, rfl, failed, rfl⟩)
      | cons first ran =>
        cases split
        exact .inl ⟨_, _, rfl, first, .failing rfl ran command failed⟩
    | stuck split ran missing =>
      cases ran with
      | nil =>
        cases split
        exact .inr (.inr ⟨missing, rfl, rfl⟩)
      | cons first ran =>
        cases split
        exact .inl ⟨_, _, rfl, first, .stuck rfl ran missing⟩
  · rintro (⟨e, u, rfl, first, others⟩ | ⟨i, reply, command, rfl, failed, rfl⟩ | ⟨missing, rfl, rfl⟩)
    · exact others.cons first
    · exact .failing (List.nil_append (task :: rest)).symm .nil command failed
    · exact .stuck (List.nil_append (task :: rest)).symm .nil missing

/-! ## The tasks that a loop comes to -/

/-- What stands right before an action: the refreshing, if the action is the first of the system's
installer and there is a command for it. `refreshed` tells whether one came before. -/
def refreshing (c : Config.Installers) (refreshed : Bool) (a : InstallAction) : List InstallTask :=
  if (a.installer = .system ∧ ¬refreshed) ∧ c.system.refresh ≠ [] then [refresh] else []

/-- The tasks of actions that begin at a place in the list. -/
def remaining (c : Config.Installers) (refreshed : Bool) (place : Nat) :
    List InstallAction → List InstallTask
  | [] => []
  | a :: rest =>
    refreshing c refreshed a ++
      action place a :: remaining c (refreshed || a.installer = .system) (place + 1) rest

theorem remaining_refreshed (place : Nat) (actions : List InstallAction) :
    remaining c true place actions = (actions.zipIdx place).map fun (a, place) => action place a := by
  induction actions generalizing place with
  | nil => rfl
  | cons a rest ih =>
    have before : refreshing c true a = [] := if_neg (by simp)
    rw [remaining, List.zipIdx_cons, List.map_cons, before, Bool.true_or, ih]
    rfl

/-- The tasks that a loop over all actions comes to are those of the installation, in their order. -/
theorem remaining_eq_reference (actions : List InstallAction) :
    remaining c false 1 actions = reference c actions := by
  suffices all : ∀ place, remaining c false place actions =
      let first := actions.findIdx (·.installer = .system)
      let tasks := (actions.zipIdx place).map fun (a, place) => action place a
      let refreshing := if first < actions.length ∧ c.system.refresh ≠ [] then [refresh] else []
      tasks.take first ++ refreshing ++ tasks.drop first from all 1
  induction actions with
  | nil => exact fun _ => rfl
  | cons a rest ih =>
    intro place
    rw [remaining, List.zipIdx_cons, List.map_cons, List.findIdx_cons, List.length_cons]
    by_cases isSystem : a.installer = .system
    · -- nothing stands before the refreshing
      simp only [isSystem, refreshing, Bool.false_eq_true, not_false_eq_true, decide_true,
        Bool.or_true, cond_true, remaining_refreshed, Nat.zero_lt_succ, true_and, List.take_zero,
        List.drop_zero, List.nil_append]
    · simp only [isSystem, refreshing, false_and, if_false, decide_false, Bool.or_false, cond_false,
        Nat.add_lt_add_iff_right, List.take_succ_cons, List.drop_succ_cons, List.nil_append,
        List.cons_append, ih (place + 1)]

theorem argvOf_eq (c : Config.Installers) (place : Nat) (a : InstallAction) :
    c.argvOf a = match (action place a).argv? c with
      | some argv => .ok argv
      | none => .error (.invalidConfig (.unclearTarget a.installer)) := by
  obtain ⟨installer, package, path⟩ := a
  cases package <;> cases path <;> rfl

/-! ## The plan -/

theorem describeAction_eq (job : Job) (place : Nat) (a : InstallAction) :
    Install.describeAction job c a = (action place a).line c job := by
  rw [Install.describeAction, argvOf_eq c place, line]
  cases (action place a).argv? c <;> rfl

theorem refresh?_eq (c : Config.Installers) :
    c.refresh? = if c.system.refresh ≠ [] then some c.system.refresh else none := by
  rw [Config.Installers.refresh?]
  cases c.system.refresh <;> rfl

theorem describeRefresh_eq (job : Job) (refreshed : Bool) (a : InstallAction) :
    Install.describeRefresh job c refreshed a = (refreshing c refreshed a).map (line c job) := by
  rw [refreshing, ite_and, Install.describeRefresh, refresh?_eq]
  split
  · split <;> rfl
  · rfl

/-- The loop over the actions lists the lines of their tasks. -/
theorem describeActions_eq (job : Job) (refreshed : Bool) (place : Nat)
    (actions : List InstallAction) : Install.describeActions job c refreshed actions =
      (remaining c refreshed place actions).map (line c job) := by
  induction actions generalizing refreshed place with
  | nil => rfl
  | cons a rest ih =>
    rw [Install.describeActions, remaining, List.map_append, List.map_cons, describeRefresh_eq,
      describeAction_eq job place, ih]

/-! ## Running the tasks -/

theorem obstacle_of_argv {task : InstallTask} {template : CommandTemplate}
    (made : task.argv? c = some template) :
    task.obstacle c = (PipelineError.emptyCommand task.title).message := by
  rw [obstacle, made, if_pos Option.isSome_some]
  rfl

theorem invocation_of_argv {task : InstallTask} {template : CommandTemplate}
    (made : task.argv? c = some template) : ctx.invocation task.title template =
      match task.command? c ctx with
      | some i => .ok i
      | none => .error (.emptyCommand task.title) := by
  rw [JobContext.invocation_eq, command?, made, Option.map_some]
  cases ctx.job.render template with
  | nil => rfl
  | cons program args => by_cases nameless : program = "" <;> simp [nameless]

/-- Takes on a task as the loop does that runs an installation; an error is the reason why it
failed. -/
def run (c : Config.Installers) (ctx : JobContext) : InstallTask → Program (Except String Unit)
  | refresh => Install.runStep ctx refresh.title c.system.refresh
  | action place a => Install.runAction ctx c place a

theorem run_of_argv {task : InstallTask} {template : CommandTemplate}
    (made : task.argv? c = some template) :
    task.run c ctx = Install.runStep ctx task.title template := by
  cases task with
  | refresh =>
    cases made
    rfl
  | action place a =>
    rw [run, Install.runAction, argvOf_eq c place a, made]
    rfl

theorem run_of_no_argv {task : InstallTask} (none : task.argv? c = none) :
    task.run c ctx = .done (.error (task.obstacle c)) := by
  cases task with
  | refresh => cases none
  | action place a =>
    rw [run, Install.runAction, argvOf_eq c place a, obstacle, none]
    rfl

/-- What the answer to the command of a task says about the task. -/
def resultOf (task : InstallTask) : Except PipelineError CommandOutput → Except String Unit
  | .ok output => if output.passed then .ok () else .error (task.complaint (.ok output))
  | .error e => .error (task.complaint (.error e))

theorem resultOf_eq_ok_iff {task : InstallTask} {reply : Except PipelineError CommandOutput} :
    task.resultOf reply = .ok () ↔ ∃ output, reply = .ok output ∧ output.exitCode = 0 := by
  rcases reply with e | output <;> simp [resultOf, CommandOutput.passed]

theorem resultOf_eq_error_iff {task : InstallTask} {reply : Except PipelineError CommandOutput}
    {reason : String} : task.resultOf reply = .error reason ↔
      (∀ output, reply = .ok output → output.exitCode ≠ 0) ∧ reason = task.complaint reply := by
  rcases reply with e | output
  · simp [resultOf, eq_comm]
  · by_cases zero : output.exitCode = 0 <;> simp [resultOf, CommandOutput.passed, zero, eq_comm]

/-- Taking on a task runs its command, if there is one. -/
theorem run_eq (task : InstallTask) : task.run c ctx =
    match task.command? c ctx with
    | some i => (Program.command i).bind fun reply => .done (task.resultOf reply)
    | none => .done (.error (task.obstacle c)) := by
  cases made : task.argv? c with
  | none =>
    have missing : task.command? c ctx = none := by rw [command?, made, Option.map_none]
    rw [run_of_no_argv made, missing]
  | some template =>
    rw [run_of_argv made, Install.runStep, invocation_of_argv made, obstacle_of_argv made]
    cases task.command? c ctx with
    | none => rfl
    | some i =>
      refine congrArg (Program.command i).bind (funext fun reply => ?_)
      rcases reply with e | output
      · rfl
      · dsimp only [resultOf]
        split <;> rfl

/-- Takes on tasks until one fails. -/
def runAll (c : Config.Installers) (ctx : JobContext) : List InstallTask → Program PhaseOutcome
  | [] => pure .passed
  | task :: rest => do
    match ← task.run c ctx with
    | .error reason => pure (.failed reason)
    | .ok () => runAll c ctx rest

theorem runAll_refreshing (refreshed : Bool) (a : InstallAction) (tasks : List InstallTask) :
    runAll c ctx (refreshing c refreshed a ++ tasks) =
      (Install.runRefresh ctx c refreshed a).bind fun reply =>
        match reply with
        | .error reason => .done (.failed reason)
        | .ok () => runAll c ctx tasks := by
  rw [refreshing, ite_and, Install.runRefresh, refresh?_eq]
  split
  · split <;> rfl
  · rfl

/-- The loop that runs an installation takes on the tasks of its actions. -/
theorem runActions_eq (refreshed : Bool) (place : Nat) (actions : List InstallAction) :
    Install.runActions ctx c refreshed place actions =
      runAll c ctx (remaining c refreshed place actions) := by
  induction actions generalizing refreshed place with
  | nil => rfl
  | cons a rest ih =>
    rw [remaining, runAll_refreshing, runAll, Install.runActions]
    simp only [ih]
    rfl

/-- Taking on a task runs its command, if there is one, and says why it failed, if it did. -/
theorem follows_run_iff {task : InstallTask} {t : Transcript} {r : Except String Unit} :
    (task.run c ctx).Follows t (some r) ↔
      (∃ e, t = [e] ∧ Succeeds c ctx task e ∧ r = .ok ()) ∨
      (∃ i reply, task.command? c ctx = some i ∧ t = [⟨.command i, some reply⟩] ∧
        (∀ output, reply = .ok output → output.exitCode ≠ 0) ∧
        r = .error (task.complaint reply)) ∨
      task.command? c ctx = none ∧ t = [] ∧ r = .error (task.obstacle c) := by
  rw [run_eq]
  cases command : task.command? c ctx with
  | none => simp [Succeeds, command]
  | some i =>
    constructor
    · intro h
      cases h with
      | @answered _ _ reply u _ rest =>
        obtain ⟨rfl, eq⟩ := Program.follows_done_iff.mp rest
        cases eq
        cases said : task.resultOf reply with
        | ok =>
          obtain ⟨output, rfl, zero⟩ := resultOf_eq_ok_iff.mp said
          exact .inl ⟨_, rfl, ⟨i, output, command, rfl, zero⟩, rfl⟩
        | error reason =>
          obtain ⟨failed, rfl⟩ := resultOf_eq_error_iff.mp said
          exact .inr (.inl ⟨i, reply, rfl, rfl, failed, rfl⟩)
    · rintro (⟨e, rfl, ⟨j, output, command', rfl, zero⟩, rfl⟩ | ⟨j, reply, same, rfl, failed, rfl⟩ |
        ⟨missing, -, -⟩)
      · cases command.symm.trans command'
        rw [← resultOf_eq_ok_iff.mpr ⟨output, rfl, zero⟩]
        exact .answered (.done _)
      · cases same
        rw [← resultOf_eq_error_iff.mpr ⟨failed, rfl⟩]
        exact .answered (.done _)
      · cases missing

/-- Tasks are taken on until one fails, and then nothing more is run. -/
theorem follows_runAll_iff {tasks : List InstallTask} {t : Transcript} {o : PhaseOutcome} :
    (runAll c ctx tasks).Follows t (some o) ↔ Concludes c ctx tasks t o := by
  induction tasks generalizing t with
  | nil =>
    rw [concludes_nil_iff]
    exact Program.follows_done_iff.trans (and_congr_right' Option.some_inj)
  | cons task rest ih =>
    rw [concludes_cons_iff, runAll]
    constructor
    · intro h
      rcases Program.follows_bind_iff.mp h with ⟨t₁, t₂, r, rfl, first, others⟩ | ⟨stopped, -⟩
      · rcases follows_run_iff.mp first with ⟨e, rfl, succeeds, rfl⟩ |
          ⟨i, reply, command, rfl, failed, rfl⟩ | ⟨missing, rfl, rfl⟩
        · exact .inl ⟨e, t₂, rfl, succeeds, ih.mp others⟩
        · obtain ⟨rfl, eq⟩ := Program.follows_done_iff.mp others
          exact .inr (.inl ⟨i, reply, command, rfl, failed, Option.some.inj eq⟩)
        · obtain ⟨rfl, eq⟩ := Program.follows_done_iff.mp others
          exact .inr (.inr ⟨missing, rfl, Option.some.inj eq⟩)
      · cases stopped
    · rintro (⟨e, u, rfl, succeeds, others⟩ | ⟨i, reply, command, rfl, failed, rfl⟩ |
        ⟨missing, rfl, rfl⟩)
      · exact (follows_run_iff.mpr (.inl ⟨e, rfl, succeeds, rfl⟩)).bind (ih.mpr others)
      · exact (follows_run_iff.mpr (.inr (.inl ⟨i, reply, command, rfl, failed, rfl⟩))).bind
          (.done _)
      · exact (follows_run_iff.mpr (.inr (.inr ⟨missing, rfl, rfl⟩))).bind (.done _)

/-! ## The refreshing -/

theorem not_mem_declared (actions : List InstallAction) : refresh ∉ declared actions := by
  intro mem
  obtain ⟨_, -, eq⟩ := List.mem_map.mp mem
  cases eq

theorem count_refresh (actions : List InstallAction) : (reference c actions).count refresh =
    if actions.findIdx (·.installer = .system) < actions.length ∧ c.system.refresh ≠ [] then 1
    else 0 := by
  have before (n : Nat) : ((declared actions).take n).count refresh = 0 :=
    List.count_eq_zero.mpr fun mem => not_mem_declared actions (List.mem_of_mem_take mem)
  have after (n : Nat) : ((declared actions).drop n).count refresh = 0 :=
    List.count_eq_zero.mpr fun mem => not_mem_declared actions (List.mem_of_mem_drop mem)
  rw [reference, List.count_append, List.count_append, before, after, Nat.zero_add, Nat.add_zero]
  split <;> rfl

/-- The index is refreshed at most once, and only for an action of the system's installer. -/
theorem refresh_mem_iff (actions : List InstallAction) : refresh ∈ reference c actions ↔
    c.system.refresh ≠ [] ∧ ∃ a ∈ actions, a.installer = .system := by
  have first : actions.findIdx (·.installer = .system) < actions.length ↔
      ∃ a ∈ actions, a.installer = .system := by
    rw [List.findIdx_lt_length]
    simp
  rw [← List.count_pos_iff, count_refresh, ← first]
  split
  · next needed => exact iff_of_true Nat.one_pos needed.symm
  · next needless => exact iff_of_false (Nat.lt_irrefl 0) fun both => needless both.symm

end InstallTask

/-! ## The phase -/

namespace Phase

open InstallTask (Concludes reference)

/-- The plan of an installation names the commands of its tasks, in their order. -/
theorem describe_install (actions : List InstallAction) (c : Config.Installers) (ctx : JobContext) :
    (install actions c).describe ctx = (reference c actions).map (·.line c ctx.job) := by
  rw [← InstallTask.remaining_eq_reference]
  exact InstallTask.describeActions_eq ctx.job false 1 actions

theorem follows_install_iff {actions : List InstallAction} {c : Config.Installers}
    {ctx : JobContext} {t : Transcript} {outcome : PhaseOutcome} {findings : Findings} :
    ((install actions c).run ctx).Follows t (some (outcome, findings)) ↔
      findings = ctx.findings ∧ Concludes c ctx (reference c actions) t outcome := by
  rw [← InstallTask.follows_runAll_iff, ← InstallTask.remaining_eq_reference,
    ← InstallTask.runActions_eq]
  constructor
  · intro h
    rcases Program.follows_bind_iff.mp h with ⟨t₁, t₂, o, rfl, first, ends⟩ | ⟨stopped, -⟩
    · rcases Program.follows_done_iff.mp ends with ⟨rfl, eq⟩
      cases eq
      rw [List.append_nil]
      exact ⟨rfl, first⟩
    · cases stopped
  · rintro ⟨rfl, first⟩
    rw [← List.append_nil t]
    exact first.bind (.done _)

/-- If the command runner answers every command, an installation comes to an outcome. Whatever the
answers are, it runs the commands of its tasks in their order up to the first one that does not end
with zero, or before the first task that there is no command for; its outcome tells which task that
was. The package index is refreshed at most once, and only for an action of the system's installer. -/
theorem install_runs_reference (actions : List InstallAction) (c : Config.Installers)
    (ctx : JobContext) :
    (∀ host : Host, host.Answers → ((install actions c).run ctx).Returns host) ∧
    (∀ t outcome findings, ((install actions c).run ctx).Follows t (some (outcome, findings)) ↔
      findings = ctx.findings ∧ Concludes c ctx (reference c actions) t outcome) ∧
    (reference c actions).count .refresh ≤ 1 ∧
    (.refresh ∈ reference c actions ↔
      c.system.refresh ≠ [] ∧ ∃ a ∈ actions, a.installer = .system) := by
  refine ⟨fun host => (install_sound actions c).steady.returns, fun _ _ _ => follows_install_iff, ?_,
    InstallTask.refresh_mem_iff actions⟩
  rw [InstallTask.count_refresh]
  split <;> decide

/-- Surroundings in which every command ends with zero, but for those that are about one package. -/
def missingPackageHost (name : String) : Host where
  cwd := []
  command i w := ⟨some (.ok ⟨if name ∈ i.args then 100 else 0, "", "", 0⟩), w.files⟩
  service _ _ := .ok ()
  download _ _ := .ok .empty

/-- The first package of the system's installer is not to be had, so that the second is not asked
for. -/
theorem install_runs_reference_halfway :
    let actions : List InstallAction := [{ installer := .language, package := some "coverage" },
      { installer := .system, package := some "graphviz" },
      { installer := .system, package := some "libffi-dev" }]
    let job := ({} : Config).job 1 "2.7"
    let ctx := JobContext.start {} job ⟨"token"⟩ .noop ⟨"/work"⟩
    let host := missingPackageHost "graphviz"
    host.Answers ∧ ((install actions {}).run ctx).Returns host ∧
      ∃ t reason, Concludes {} ctx (reference {} actions) t (.failed reason) ∧
        reason = "install action 2 (system:graphviz) exited with code 100" := by
  intro actions job ctx host
  have answers : host.Answers := fun i w => ⟨_, rfl⟩
  obtain ⟨returns, concludes, -⟩ := install_runs_reference actions {} ctx
  let w : World := ⟨⟨[]⟩, []⟩
  obtain ⟨t, follows, -⟩ := Program.exists_follows_run host ((install actions {}).run ctx) w
  have outcome : (((install actions {}).run ctx).run host w).1 = some
      (.failed "install action 2 (system:graphviz) exited with code 100", ctx.findings) := by
    decide +kernel
  rw [outcome] at follows
  exact ⟨answers, returns host answers, t, _, ((concludes _ _ _).mp follows).2, rfl⟩

end Phase
end CoverageMatrix
