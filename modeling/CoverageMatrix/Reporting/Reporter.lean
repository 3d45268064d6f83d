import CoverageMatrix.Program.Basic

/-!
Reporters: the ways to talk to the reporting service. Every call is noted in the journal before the
reporter acts on it, whatever the reporter does then.
-/
namespace CoverageMatrix

/-- A way to open and close reporting sessions. -/
structure Reporter where
  name : String
  opened : ReporterId → SessionScope → Program (Except PipelineError Unit)
  closed : ReporterId → SessionScope → Int → Program (Except PipelineError Unit)

namespace Reporter

def openSession (r : Reporter) (id : ReporterId) (scope : SessionScope) :
    Program (Except PipelineError Unit) := do
  Program.note (.session (.opening id scope))
  r.opened id scope

/-- Closes a session with the result of the tests. -/
def closeSession (r : Reporter) (id : ReporterId) (scope : SessionScope) (code : Int) :
    Program (Except PipelineError Unit) := do
  Program.note (.session (.closing id scope code))
  r.closed id scope code

/-- The reporter that accepts every call and does nothing. -/
def noop : Reporter where
  name := "noop"
  opened _ _ := pure (.ok ())
  closed _ _ _ := pure (.ok ())

/-- The reporter that leaves each answer to the service. -/
def recording : Reporter where
  name := "recording"
  opened id scope := Program.request (.service (.opening id scope))
  closed id scope code := Program.request (.service (.closing id scope code))

end Reporter
end CoverageMatrix
