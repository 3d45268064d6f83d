import CoverageMatrix.Config.Basic
import CoverageMatrix.Data.Decode
import CoverageMatrix.Files.Fault
import CoverageMatrix.Json.Writer
import CoverageMatrix.Toml.Writer

/-!
What can go wrong while a pipeline is configured and run. An error is kept as its cause; the words
for it are found in one place, `PipelineError.message`.
-/
namespace CoverageMatrix

/-- What makes a configuration that was read unusable. -/
inductive ConfigProblem where
  | noVersions
  | blankVersion
  | repeatedVersion (version : String)
  | noParallelism
  | unclearTarget (installer : Installer)
  | blankCoverageVariable
  | emptyHelperPath
  /-- A version was asked for that the matrix does not have. -/
  | foreignVersion (version : String)
  /-- A job's phases do not have exactly one that closes the session. -/
  | closingPhases (count : Nat)
  /-- A number is too large for the document format. -/
  | numberTooLarge
  | described (text : String)
deriving DecidableEq

def ConfigProblem.message : ConfigProblem → String
  | noVersions => "matrix.versions must list at least one version"
  | blankVersion => "matrix.versions contains an empty entry"
  | repeatedVersion version => "matrix version '" ++ version ++ "' is listed twice"
  | noParallelism => "matrix.parallelism must be at least 1"
  | unclearTarget installer =>
    installer.name ++ " install action needs exactly one of `package` or `path`"
  | blankCoverageVariable => "tests.coverage_env must not be empty"
  | emptyHelperPath => "reporter.helper_path must not be empty"
  | foreignVersion version => "version '" ++ version ++ "' is not part of the matrix"
  | closingPhases count =>
    "a job pipeline needs exactly one close_session phase, found " ++ toString count
  | numberTooLarge => "out-of-range value for u64 type"
  | described text => text

/-- Why a pipeline file could not be read as a configuration. -/
inductive ConfigReading where
  /-- The text is not in the format of the file. -/
  | malformed
  /-- The text does not have the form of a configuration. -/
  | illTyped (cause : Decode.Error)
  | described (text : String)

/-- The wording of a cause, on a line of its own; where in the text it was found is left out. -/
def ConfigReading.message : ConfigReading → String
  | malformed => "TOML parse error"
  | illTyped cause => "TOML parse error\n" ++ cause.message Toml.layout
  | described text => text

inductive PipelineError where
  | configParse (path : Path) (cause : ConfigReading)
  | invalidConfig (problem : ConfigProblem)
  | emptyCommand (label : String)
  /-- A program could not be started. -/
  | spawn (program : String) (reason : String)
  | timeout (program : String) (seconds : Nat)
  /-- The reporting helper could not be put in place. -/
  | helperFetch (source : String) (reason : String)
  /-- The reporting helper failed. -/
  | reporter (command : String) (code : Int)
  | io (fault : Files.Fault)
  /-- A JSON text is not a value of the expected type. -/
  | json (cause : Decode.Error)

namespace PipelineError

def message : PipelineError → String
  | configParse path cause =>
    "Failed to parse pipeline file " ++ path.text ++ ": " ++ cause.message
  | invalidConfig problem => "Invalid pipeline configuration: " ++ problem.message
  | emptyCommand label => "Empty command for " ++ label
  | spawn program reason => "Failed to spawn '" ++ program ++ "': " ++ reason
  | timeout program seconds =>
    "'" ++ program ++ "' timed out after " ++ toString seconds ++ " seconds"
  | helperFetch source reason =>
    "Failed to fetch reporting helper from " ++ source ++ ": " ++ reason
  | reporter command code =>
    "Reporting helper '" ++ command ++ "' exited with code " ++ toString code
  | io fault => "IO error: " ++ fault.message
  | json cause => "JSON error: " ++ cause.message Json.layout

/-- The wording of what an error was raised from, where it passes one on. -/
def cause? : PipelineError → Option String
  | io fault => some fault.message
  | json cause => some (cause.message Json.layout)
  | _ => none

end PipelineError
end CoverageMatrix
