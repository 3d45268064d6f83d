import CoverageMatrix.EnvVars
import CoverageMatrix.Text.Substitute
import CoverageMatrix.Text.Utf8

/-!
A job: one interpreter version of the matrix, with the variables it runs under. Commands are
templates, in which a job's own values take the place of `{interpreter}`, `{version}` and `{job}`.
-/
namespace CoverageMatrix

/-- The name of a job, such as `python-2.7`. -/
structure JobId where
  text : String
deriving DecidableEq, Inhabited

/-- The run of the tests under one interpreter version. -/
structure Job where
  id : JobId
  /-- The place in the matrix, counted from one. -/
  number : Nat
  interpreter : String
  version : String
  env : EnvVars
  /-- Stands for the configuration and the version. -/
  digest : String
deriving DecidableEq

namespace Job

/-- The placeholders of a template with the values that a job puts in, in the order in which they
are filled. -/
def placeholders (job : Job) : List (String × String) :=
  [("\x7binterpreter\x7d", job.interpreter), ("\x7bversion\x7d", job.version),
   ("\x7bjob\x7d", job.id.text)]

def renderArg (job : Job) (argument : String) : String :=
  job.placeholders.foldl (fun text p => Text.replace p.1 p.2 text) argument

/-- Fills in the placeholders of a command. -/
def render (job : Job) (template : List String) : List String :=
  template.map job.renderArg

/-- How many bytes of its digest name a job for short. -/
def shortDigestLength : Nat := 12

/-- The beginning of a job's digest; none if the cut would fall inside a character. -/
def shortDigest? (job : Job) : Option String :=
  Text.Utf8.ofBytes? ((Text.Utf8.encode job.digest).take shortDigestLength).toByteArray

end Job
end CoverageMatrix
