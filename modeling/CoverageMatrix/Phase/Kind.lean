/-!
The kinds of phases that a job is made of, when each of them runs, and the state that a job has
reached once it has passed one.
-/
namespace CoverageMatrix

/-- The code of a job that failed before its tests gave one. -/
def setupFailureCode : Int := -1

/-! ## Run policies -/

inductive RunPolicy where
  /-- As long as nothing has aborted the job; a failure aborts it. -/
  | afterSetup
  | always
  | onTestsPassed
deriving DecidableEq

namespace RunPolicy

def name : RunPolicy → String
  | afterSetup => "after_setup"
  | always => "always"
  | onTestsPassed => "on_tests_passed"

def title : RunPolicy → String
  | afterSetup => "AfterSetup"
  | always => "Always"
  | onTestsPassed => "OnTestsPassed"

def byName : List (String × RunPolicy) :=
  [afterSetup, always, onTestsPassed].map fun p => (p.name, p)

end RunPolicy

/-! ## States -/

inductive JobState where
  | start
  | dependenciesInstalled
  | reportSessionOpened
  | testsRun
  | reportSessionClosed
  | coverageExported
  | finish
deriving DecidableEq

namespace JobState

/-- The states in the order in which a job reaches them. -/
def all : List JobState :=
  [start, dependenciesInstalled, reportSessionOpened, testsRun, reportSessionClosed,
   coverageExported, finish]

def name : JobState → String
  | start => "START"
  | dependenciesInstalled => "DEPENDENCIES_INSTALLED"
  | reportSessionOpened => "REPORT_SESSION_OPENED"
  | testsRun => "TESTS_RUN"
  | reportSessionClosed => "REPORT_SESSION_CLOSED"
  | coverageExported => "COVERAGE_EXPORTED"
  | finish => "END"

def title : JobState → String
  | start => "Start"
  | dependenciesInstalled => "DependenciesInstalled"
  | reportSessionOpened => "ReportSessionOpened"
  | testsRun => "TestsRun"
  | reportSessionClosed => "ReportSessionClosed"
  | coverageExported => "CoverageExported"
  | finish => "End"

def byName : List (String × JobState) :=
  all.map fun s => (s.name, s)

end JobState

/-! ## Kinds -/

inductive PhaseKind where
  | install
  | openSession
  | testRun
  | closeSession
  | exportCoverage
deriving DecidableEq

namespace PhaseKind

/-- The kinds in the order of a standard job. -/
def all : List PhaseKind :=
  [install, openSession, testRun, closeSession, exportCoverage]

def name : PhaseKind → String
  | install => "install"
  | openSession => "open_session"
  | testRun => "test_run"
  | closeSession => "close_session"
  | exportCoverage => "export_coverage"

def byName : List (String × PhaseKind) :=
  all.map fun k => (k.name, k)

def policy : PhaseKind → RunPolicy
  | install | openSession | testRun => .afterSetup
  | closeSession => .always
  | exportCoverage => .onTestsPassed

/-- What a job has reached after a phase of a kind. -/
def reached : PhaseKind → JobState
  | install => .dependenciesInstalled
  | openSession => .reportSessionOpened
  | testRun => .testsRun
  | closeSession => .reportSessionClosed
  | exportCoverage => .coverageExported

end PhaseKind
end CoverageMatrix
