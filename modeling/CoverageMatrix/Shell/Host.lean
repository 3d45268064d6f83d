import CoverageMatrix.Program.World
import CoverageMatrix.Reporting.Offline
import CoverageMatrix.Shell.Eval

/-!
The host whose commands are programs: each is found as an operating system finds it, and runs on the
files of the world with nothing to read.
-/
namespace CoverageMatrix.Shell

/-- Why a program cannot be started, by its arguments and variables alone. -/
def nulFault? (i : Invocation) : Option Files.Fault :=
  let hasNul (s : String) : Bool := s.toList.contains '\x00'
  if i.argv.any hasNul ∨ hasNul i.cwd.text ∨ i.env.entries.any (fun e => hasNul e.1 || hasNul e.2)
  then some .nulInArgument
  else none

/-- The variables as programs see them: a name ends at its first `=`, and what follows belongs to
the value. -/
def asSeen (env : EnvVars) : EnvVars :=
  .ofList (env.entries.map fun (name, value) =>
    match name.splitOn "=" with
    | first :: more => (first, String.intercalate "=" (more ++ [value]))
    | [] => (name, value))

/-- Finds the program of a command: where it runs, and what is run. A command that looks its program
up along a path of its own may leave plain text to a shell. -/
def prepare (host : Files.Location) (env : EnvVars) (files : Files.Tree) (i : Invocation) :
    Except Files.Fault (Files.Location × Loader.Loaded) := do
  if let some fault := nulFault? i then throw fault
  match ← files.find host i.cwd with
  | (l, .directory) =>
    let found ← Loader.find files l ((env.get? "PATH").getD Loader.defaultPath) i.argv
    match found with
    | .program loaded => pure (l, loaded)
    | .plain _ _ _ =>
      if (i.env.get? "PATH").isSome ∧ ¬i.program.toList.contains '/' then
        pure (l, found.throughShell)
      else throw .noExec
  | _ => throw .notDirectory

def runCommand (host : Files.Location) (inherited : EnvVars) (i : Invocation) (files : Files.Tree) :
    CommandReply :=
  let env := inherited.overlay i.env
  match prepare host env files i with
  | .error fault => ⟨some (.error (.spawn i.program fault.message)), files⟩
  | .ok (cwd, loaded) =>
    let m : Machine :=
      { files := files, cwd := cwd, vars := asSeen env,
        exported := (asSeen env).entries.map (·.1), name := i.program, args := [] }
    let m := start depthLimit loaded (m.set "PWD" cwd.path.text)
    let (out, err) := (Text.Utf8.ofBytesLenient m.out, Text.Utf8.ofBytesLenient m.err)
    ⟨some (.ok ⟨m.status, out, err, 0⟩), m.files⟩

/-- The host that runs commands in a directory, under the variables that it passes on. -/
def host (cwd : Files.Location) (inherited : EnvVars) : Host where
  cwd := cwd
  command i w := runCommand cwd inherited i w.files
  service _ _ := .ok ()
  download url _ := Offline.download url

end CoverageMatrix.Shell
