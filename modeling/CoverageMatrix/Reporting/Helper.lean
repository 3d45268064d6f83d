import CoverageMatrix.Config.Basic
import CoverageMatrix.Reporting.Reporter

/-!
The reporting helper: an executable that speaks to the reporting service. Each job gets a copy of
its own, and only a job whose copy was put in place can close a session.
-/
namespace CoverageMatrix

inductive HelperSource where
  | url (url : String)
  | file (path : Path)
deriving DecidableEq

def HelperSource.shown : HelperSource → String
  | url u => u
  | file path => path.text

structure Helper where
  source : HelperSource
  /-- Where copies go, seen from a job's working directory. -/
  path : Path
  /-- The variable that gives a copy the identifier. -/
  idEnv : String
  timeoutSecs : Nat
  /-- The directory in which everything runs. -/
  cwd : Path

namespace Helper

/-- The helper of a configuration: a local file, if one is named. -/
def ofConfig (c : Config.Reporter) (cwd : Path) : Helper where
  source := match c.helperFile with
    | some path => .file path
    | none => .url c.helperUrl
  path := c.helperPath
  idEnv := c.idEnv
  timeoutSecs := c.timeoutSecs
  cwd := cwd

def locationFor (h : Helper) (scope : SessionScope) : Path :=
  ((scope.workdir.join h.path).append ("-" ++ scope.jobId.text)).absolute h.cwd

/-- Puts a copy in place, without the right to run it. -/
def fetch (h : Helper) (target : Path) : Program (Except PipelineError Unit) :=
  match h.source with
  | .url url => do
    match ← Program.request (.download url) with
    | .error e => pure (.error e)
    | .ok content =>
      match ← Program.request (.writeFile target content) with
      | .error fault => pure (.error (.io fault))
      | .ok () => pure (.ok ())
  | .file path => do
    match ← Program.request (.copyFile path target) with
    | .error fault => pure (.error (.helperFetch path.text fault.message))
    | .ok () => pure (.ok ())

/-- Puts a copy in place and makes it executable. -/
def acquire (h : Helper) (target : Path) : Program (Except PipelineError Unit) := do
  match ← h.fetch target with
  | .error e => pure (.error e)
  | .ok () =>
    match ← Program.request (.makeExecutable target) with
    | .error fault => pure (.error (.io fault))
    | .ok () => pure (.ok ())

/-- The command that runs a job's copy. -/
def invocation (h : Helper) (args : List String) (id : ReporterId) (scope : SessionScope) :
    Except PipelineError Invocation := do
  let i ← Invocation.ofArgv ("reporter " ++ args.headD "") ((h.locationFor scope).text :: args)
    scope.workdir
  return ((i.withEnv scope.env).withVar h.idEnv id.expose).withTimeout h.timeoutSecs

/-- Runs a job's copy. -/
def invoke (h : Helper) (args : List String) (id : ReporterId) (scope : SessionScope) :
    Program (Except PipelineError Unit) :=
  match h.invocation args id scope with
  | .error e => pure (.error e)
  | .ok i => do
    match ← Program.command i with
    | .error e => pure (.error e)
    | .ok output =>
      if output.passed then pure (.ok ())
      else pure (.error (.reporter (String.intercalate " " args) output.exitCode))

/-- Puts the job's copy in place and tells it that a build begins. -/
def openSession (h : Helper) (id : ReporterId) (scope : SessionScope) :
    Program (Except PipelineError Unit) := do
  match ← h.acquire (h.locationFor scope) with
  | .error e => pure (.error e)
  | .ok () =>
    Program.note (.acquired scope.jobId)
    h.invoke ["before-build"] id scope

/-- What a job is told whose copy was never put in place. -/
def neverAcquired (h : Helper) (scope : SessionScope) : PipelineError :=
  .helperFetch h.source.shown ("helper was never acquired for job " ++ scope.jobId.text ++ " at "
    ++ (h.locationFor scope).text)

/-- Tells the job's copy how the build ended. -/
def closeSession (h : Helper) (id : ReporterId) (scope : SessionScope) (code : Int) :
    Program (Except PipelineError Unit) := do
  if ← Program.wasAcquired scope.jobId then
    h.invoke ["after-build", "--exit-code", toString code] id scope
  else pure (.error (h.neverAcquired scope))

def reporter (h : Helper) : Reporter where
  name := "helper"
  opened := h.openSession
  closed := h.closeSession

end Helper
end CoverageMatrix
