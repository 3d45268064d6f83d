import CoverageMatrix.EnvVars
import CoverageMatrix.Error

/-!
Commands with nothing left open: the program, its arguments, where it runs and under which
variables. Also what a command leaves behind when it ends.
-/
namespace CoverageMatrix

/-- A command that is ready to run. -/
structure Invocation where
  label : String
  program : String
  args : List String
  /-- Variables on top of those that are there anyway. -/
  env : EnvVars
  cwd : Path
  /-- How long it may run, in seconds; zero sets no limit. -/
  timeoutSecs : Nat
deriving DecidableEq

namespace Invocation

/-- A command from its program and arguments; there has to be a program. -/
def ofArgv (label : String) (argv : List String) (cwd : Path) : Except PipelineError Invocation :=
  match argv with
  | [] => .error (.emptyCommand label)
  | program :: args =>
    if program.isEmpty then .error (.emptyCommand label)
    else .ok ⟨label, program, args, .empty, cwd, 0⟩

/-- The command with more variables set. -/
def withEnv (i : Invocation) (vars : EnvVars) : Invocation :=
  { i with env := i.env.overlay vars }

/-- The command with one more variable set. -/
def withVar (i : Invocation) (name value : String) : Invocation :=
  { i with env := i.env.insert name value }

/-- The command with a limit on its time. -/
def withTimeout (i : Invocation) (seconds : Nat) : Invocation :=
  { i with timeoutSecs := seconds }

def argv (i : Invocation) : List String :=
  i.program :: i.args

def line (i : Invocation) : String :=
  String.intercalate " " i.argv

end Invocation

/-- What a command that ended leaves behind. -/
structure CommandOutput where
  exitCode : Int
  stdout : String
  stderr : String
  durationMs : Nat
deriving DecidableEq

def CommandOutput.passed (o : CommandOutput) : Bool :=
  o.exitCode = 0

end CoverageMatrix
