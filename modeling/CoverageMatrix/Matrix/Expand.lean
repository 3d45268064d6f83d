import CoverageMatrix.Config.Digest
import CoverageMatrix.Config.Valid
import CoverageMatrix.Job.Basic

/-!
The jobs of a matrix: one for each version, in the order of the configuration. A job has the
configuration's variables and three more that tell it which job it is.
-/
namespace CoverageMatrix

/-- The variable that holds the interpreter's name. -/
def interpreterVariable : String := "COVPIPE_INTERPRETER"

def versionVariable : String := "COVPIPE_INTERPRETER_VERSION"

def jobNumberVariable : String := "COVPIPE_JOB_NUMBER"

/-- The digest of a job: of the configuration's digest and the version, with a zero between. -/
def jobDigest (configDigest version : String) : String :=
  Sha256.ofText (configDigest ++ "\x00" ++ version)

namespace Config

/-- The job of a version that stands at a place in the matrix, counted from one. -/
def job (c : Config) (number : Nat) (version : String) : Job where
  id := ⟨c.matrix.interpreter ++ "-" ++ version⟩
  number := number
  interpreter := c.matrix.interpreter
  version := version
  env := ((c.env.insert interpreterVariable c.matrix.interpreter).insert versionVariable
    version).insert jobNumberVariable (toString number)
  digest := jobDigest c.digest version

/-- The jobs of versions that follow each other, the first at place `number`. -/
def jobsFrom (c : Config) (number : Nat) : List String → List Job
  | [] => []
  | version :: rest => c.job number version :: c.jobsFrom (number + 1) rest

/-- The jobs of a configuration, whether they can be run or not. -/
def jobs (c : Config) : List Job :=
  c.jobsFrom 1 c.matrix.versions

/-- The jobs of a configuration that can be run. -/
def expand (c : Config) : Except PipelineError (List Job) := do
  c.validate
  pure c.jobs

end Config
end CoverageMatrix
