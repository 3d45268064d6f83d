import CoverageMatrix.EnvVars
import CoverageMatrix.Job.Basic
import CoverageMatrix.Path

/-!
Reporting sessions: a job opens one with the reporting service before its tests and closes it with
their result. The identifier with which the service knows a project is a secret and is never shown.
-/
namespace CoverageMatrix

/-- The identifier of a project at the reporting service. -/
structure ReporterId where
  /-- The secret itself, for those who have to pass it on. -/
  expose : String
deriving DecidableEq

/-- What stands for an identifier in messages. -/
def ReporterId.shown (_ : ReporterId) : String := "***"

/-- What stands for an identifier in a trace, with the name of its type. -/
def ReporterId.traced (id : ReporterId) : String := "ReporterId(" ++ id.shown ++ ")"

/-- What a session needs to know about its job. -/
structure SessionScope where
  jobId : JobId
  workdir : Path
  env : EnvVars
deriving DecidableEq

inductive SessionCall where
  | opening (id : ReporterId) (scope : SessionScope)
  | closing (id : ReporterId) (scope : SessionScope) (code : Int)
deriving DecidableEq

namespace SessionCall

def jobId : SessionCall → JobId
  | opening _ scope => scope.jobId
  | closing _ scope _ => scope.jobId

/-- The code with which a call closes a session, if it does. -/
def closingCode? : SessionCall → Option Int
  | opening _ _ => none
  | closing _ _ code => some code

@[simp] theorem jobId_closing (id : ReporterId) (scope : SessionScope) (code : Int) :
    (closing id scope code).jobId = scope.jobId := rfl

end SessionCall
end CoverageMatrix
