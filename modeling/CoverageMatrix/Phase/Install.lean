import CoverageMatrix.Config.Valid
import CoverageMatrix.Phase.Basic

/-!
The phase that installs dependencies, one after the other, until one fails. The package index is
refreshed once, right before the first package of the system's installer. What the phase says and
what it does are two loops over the actions, each with its own notion of what was refreshed.
-/
namespace CoverageMatrix

namespace Config.Installers

/-- The command of an action, or why it does not make one. -/
def argvOf (c : Config.Installers) (action : InstallAction) :
    Except PipelineError CommandTemplate :=
  action.target.map fun target => c.commandFor action.installer ++ [target]

/-- The command that refreshes the package index, if there is one. -/
def refresh? (c : Config.Installers) : Option CommandTemplate :=
  if c.system.refresh.isEmpty then none else some c.system.refresh

end Config.Installers

namespace Install

/-! ## What is said -/

section
variable (job : Job) (c : Config.Installers)

def line (argv : CommandTemplate) : String :=
  String.intercalate " " (job.render argv)

def describeAction (action : InstallAction) : String :=
  match c.argvOf action with
  | .ok argv => line job argv
  | .error e => "<invalid: " ++ e.message ++ ">"

/-- What is said of the refreshing before an action; `refreshed` tells whether a package of the
system's installer came before. -/
def describeRefresh (refreshed : Bool) (action : InstallAction) : List String :=
  if action.installer = .system ∧ ¬refreshed then (c.refresh?.map (line job)).toList else []

def describeActions (refreshed : Bool) : List InstallAction → List String
  | [] => []
  | action :: rest =>
    describeRefresh job c refreshed action ++ describeAction job c action ::
      describeActions (refreshed || action.installer = .system) rest

end

/-! ## What is done -/

section
variable (ctx : JobContext) (c : Config.Installers)

/-- Runs one command; an error is the reason why it failed. -/
def runStep (label : String) (argv : CommandTemplate) : Program (Except String Unit) :=
  match ctx.invocation label argv with
  | .error e => pure (.error e.message)
  | .ok i => do
    match ← Program.command i with
    | .ok output =>
      if output.passed then pure (.ok ())
      else pure (.error (label ++ " exited with code " ++ toString output.exitCode))
    | .error e => pure (.error (label ++ ": " ++ e.message))

/-- Refreshes the package index before the first package of the system's installer, if there is a
command for it. -/
def runRefresh (refreshed : Bool) (action : InstallAction) : Program (Except String Unit) :=
  if action.installer = .system ∧ ¬refreshed then
    match c.refresh? with
    | some argv => runStep ctx "system package index refresh" argv
    | none => pure (.ok ())
  else pure (.ok ())

/-- Takes the action that stands at a place in the list, counted from one. -/
def runAction (position : Nat) (action : InstallAction) : Program (Except String Unit) :=
  let label := "install action " ++ toString position ++ " (" ++ action.label ++ ")"
  match c.argvOf action with
  | .error e => pure (.error (label ++ ": " ++ e.message))
  | .ok argv => runStep ctx label argv

/-- Takes actions that begin at a place in the list, until one fails. -/
def runActions (refreshed : Bool) (position : Nat) : List InstallAction → Program PhaseOutcome
  | [] => pure .passed
  | action :: rest => do
    match ← runRefresh ctx c refreshed action with
    | .error reason => pure (.failed reason)
    | .ok () =>
      match ← runAction ctx c position action with
      | .error reason => pure (.failed reason)
      | .ok () => runActions (refreshed || action.installer = .system) (position + 1) rest

end
end Install

def Phase.install (actions : List InstallAction) (c : Config.Installers) : Phase where
  kind := .install
  describe ctx := Install.describeActions ctx.job c false actions
  run ctx := do
    let outcome ← Install.runActions ctx c false 1 actions
    pure (outcome, ctx.findings)

end CoverageMatrix
