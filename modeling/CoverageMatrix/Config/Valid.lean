import CoverageMatrix.Config.Basic
import CoverageMatrix.Error
import CoverageMatrix.Text.Blank

/-!
Validity: whether a configuration describes a pipeline that can be run, and the first thing that is
wrong with one that does not. Also the restriction of a matrix to some of its versions.
-/
namespace CoverageMatrix

namespace InstallAction

/-- What an action installs: its package or its path, of which there has to be exactly one. -/
def target (action : InstallAction) : Except PipelineError String :=
  match action.package, action.path with
  | some name, none => .ok name
  | none, some path => .ok path.text
  | _, _ => .error (.invalidConfig (.unclearTarget action.installer))

def label (action : InstallAction) : String :=
  action.installer.name ++ ":" ++ (action.target.toOption.getD "?")

end InstallAction

namespace Config

/-- The first blank or repeated entry of a list of versions; `seen` came before. -/
def versionProblem? (seen : List String) : List String → Option ConfigProblem
  | [] => none
  | v :: rest =>
    if Text.isBlank v then some .blankVersion
    else if v ∈ seen then some (.repeatedVersion v)
    else versionProblem? (v :: seen) rest

/-- The commands that must not be empty, with the names of their fields. -/
def requiredCommands (c : Config) : List (String × CommandTemplate) :=
  [("tests.command", c.tests.command), ("export.command", c.exports.command),
   ("installers.system.command", c.installers.system.command),
   ("installers.language.command", c.installers.language.command)]

/-- Whether a configuration describes a pipeline that can be run. -/
def validate (c : Config) : Except PipelineError Unit := do
  if c.matrix.versions.isEmpty then throw (.invalidConfig .noVersions)
  if let some problem := versionProblem? [] c.matrix.versions then throw (.invalidConfig problem)
  if c.matrix.parallelism = 0 then throw (.invalidConfig .noParallelism)
  if let some (name, _) := c.requiredCommands.find? (·.2.isEmpty) then throw (.emptyCommand name)
  c.dependencies.forM fun action => action.target.map fun _ => ()
  if Text.isBlank c.tests.coverageEnv then throw (.invalidConfig .blankCoverageVariable)
  if c.reporter.helperPath.text.isEmpty then throw (.invalidConfig .emptyHelperPath)

/-- Keeps only the listed versions, in the order of the matrix; each has to be part of it. -/
def restrictVersions (c : Config) (versions : List String) : Except PipelineError Config :=
  match versions.find? (· ∉ c.matrix.versions) with
  | some v => .error (.invalidConfig (.foreignVersion v))
  | none =>
    .ok { c with matrix := { c.matrix with versions := c.matrix.versions.filter (· ∈ versions) } }

end Config
end CoverageMatrix
