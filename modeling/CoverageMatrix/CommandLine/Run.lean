import CoverageMatrix.CommandLine.Arguments
import CoverageMatrix.CommandLine.Report
import CoverageMatrix.Config.File
import CoverageMatrix.Matrix.Form
import CoverageMatrix.Matrix.Run
import CoverageMatrix.Reporting.Helper

/-!
The commands of the command line. Each acts on the world and ends with an exit code and what it
printed; the exit code of a run is that of its matrix.
-/
namespace CoverageMatrix.CommandLine

structure Outcome where
  exitCode : Int
  stdout : String
  stderr : String
  world : World

namespace Outcome

/-- The outcome of a command that did what it was asked. -/
def done (stdout : String) (w : World) : Outcome :=
  ⟨0, stdout, "", w⟩

/-- The outcome of a command that was stopped by an error. -/
def failed (stdout : String) (report : Report) (w : World) : Outcome :=
  ⟨1, stdout, report.text, w⟩

end Outcome

def unlines (lines : List String) : String :=
  String.join (lines.map (· ++ "\n"))

/-! ## What a run and a plan begin with -/

/-- The configuration of a pipeline file with what the command line changes about it. -/
def loadConfig (host : Host) (w : World) (path : Path) (parallel : Option Nat)
    (versions : List String) : Except Report Config := do
  let c ← (Config.load w.files host.cwd path).mapError
    (Report.during ("Failed to load pipeline file " ++ path.text))
  let c ← if versions.isEmpty then pure c
    else (c.restrictVersions versions).mapError Report.ofError
  let c := match parallel with
    | some n => { c with matrix := { c.matrix with parallelism := n } }
    | none => c
  (c.validate).mapError (Report.during "Invalid pipeline configuration")
  pure c

/-- The report of a run that has nothing to identify itself with. -/
def noReporterId : Report :=
  ⟨"No reporter id: pass --reporter-id, set CC_TEST_REPORTER_ID, or use --no-report", []⟩

/-- The identifier of a run: the one given, or else that of the configuration. Only a run that does
not report may do without. -/
def resolveId (given : Option String) (c : Config) (noReport : Bool) : Except Report ReporterId :=
  match given.or c.reporter.id with
  | some id =>
    if !id.isEmpty then .ok ⟨id⟩ else if noReport then .ok ⟨""⟩ else .error noReporterId
  | none => if noReport then .ok ⟨""⟩ else .error noReporterId

def chooseReporter (c : Config) (noReport : Bool) (cwd : Path) : Reporter :=
  if noReport then .noop else (Helper.ofConfig c.reporter cwd).reporter

/-! ## Run -/

def mark (ok : Bool) : String :=
  if ok then "✓" else "✗"

/-- A mark for success or failure with its word. -/
def verdictWord (ok : Bool) : String :=
  mark ok ++ (if ok then " PASSED" else " FAILED")

/-- What is printed before the jobs are run. -/
def openingLines (path : Path) (c : Config) (reporter : Reporter) : List String :=
  ["Running pipeline: " ++ path.text,
   "Matrix: " ++ c.matrix.interpreter ++ " " ++ String.intercalate ", " c.matrix.versions,
   "Reporter: " ++ reporter.name, ""]

def jobLine (r : JobResult) : String :=
  let ending := match r.abortedAt with
    | some kind => "aborted during " ++ kind.name
    | none => "exit code: " ++ toString r.exitCode
  "  " ++ mark r.success ++ " " ++ r.job.id.text ++ " (" ++ toString r.durationMs ++ "ms, "
    ++ ending ++ ")"

/-- A list under a heading; nothing for an empty one. -/
def underHeading (heading : String) (lines : List String) : List String :=
  if lines.isEmpty then [] else heading :: lines.map ("  - " ++ ·)

/-- What is printed after the jobs were run. -/
def closingLines (r : MatrixResult) (v : GateVerdict) : List String :=
  ["Build ID: " ++ r.buildId, "Status: " ++ verdictWord r.success,
   "Duration: " ++ toString r.durationMs ++ "ms", ""]
    ++ r.jobs.map jobLine
    ++ ["",
      "Summary: " ++ toString r.passedCount ++ "/" ++ toString r.jobs.length ++ " jobs passed",
      "Gate: " ++ verdictWord v.passed]
    ++ underHeading "Violations:" v.violations ++ underHeading "Warnings:" v.warnings

def summaryData (r : MatrixResult) (v : GateVerdict) : Data :=
  .table [("result", r.toData), ("gate", v.toData)]

/-- The world with the summary written, if one was asked for. -/
def writeSummary (host : Host) (w : World) (r : MatrixResult) (v : GateVerdict) :
    Option Path → Except Report World
  | none => .ok w
  | some path =>
    match w.files.write host.cwd path (Json.indented (summaryData r v)).toUTF8 with
    | .ok files => .ok { w with files := files }
    | .error fault => .error (.ofFault ("Failed to write summary to " ++ path.text) fault)

/-- What is printed of a run, and how it exits, once its matrix has come to an end. -/
def conclude (host : Host) (o : RunOptions) (c : Config) :
    Except PipelineError MatrixResult → World → Outcome
  | .error e, w =>
    .failed (unlines (openingLines o.config c (chooseReporter c o.noReport host.cwd.path)))
      (.during "Matrix failed to run" e) w
  | .ok r, w =>
    let verdict := Gate.evaluate r.jobs
    let printed := unlines (openingLines o.config c (chooseReporter c o.noReport host.cwd.path))
      ++ unlines (closingLines r verdict)
    match writeSummary host w r verdict o.summary with
    | .error report => .failed printed report w
    | .ok w =>
      let last := if r.exitCode = 0 then "\n✓ All jobs passed!\n" else ""
      ⟨r.exitCode, printed ++ last, "", w⟩

/-- The exit code of a program that broke down. -/
def breakdownCode : Int := 101

/-- Runs a matrix whose configuration and identifier are settled. -/
def runMatrix (host : Host) (stamps : Nat → Stamp) (o : RunOptions) (c : Config) (id : ReporterId)
    (w : World) : Outcome :=
  let reporter := chooseReporter c o.noReport host.cwd.path
  match (MatrixRunner.standard c id reporter).run host stamps w with
  | (none, w) =>
    ⟨breakdownCode, unlines (openingLines o.config c reporter), "the run broke down\n", w⟩
  | (some ending, w) => conclude host o c ending w

/-- The configuration of a run and its identifier. -/
def settle (host : Host) (o : RunOptions) (w : World) : Except Report (Config × ReporterId) := do
  let c ← loadConfig host w o.config o.parallel o.versions
  let id ← resolveId o.reporterId c o.noReport
  pure (c, id)

/-- Runs the matrix of a pipeline file. -/
def run (host : Host) (stamps : Nat → Stamp) (o : RunOptions) (w : World) : Outcome :=
  match settle host o w with
  | .error report => .failed "" report w
  | .ok (c, id) => runMatrix host stamps o c id w

/-! ## Plan -/

def planLines (ctx : JobContext) (phases : List (PhaseKind × List String)) : List String :=
  ["", "Job " ++ ctx.job.id.text ++ " (#" ++ toString ctx.job.number ++ ", digest "
    ++ ctx.job.shortDigest?.getD "" ++ ")"]
    ++ phases.flatMap fun (kind, steps) =>
      ("  [" ++ kind.name ++ "] (" ++ kind.policy.title ++ ")") :: steps.map ("      " ++ ·)

/-- Shows what a run of a pipeline file would do. -/
def plan (host : Host) (o : PlanOptions) (w : World) : Outcome :=
  match loadConfig host w o.config none o.versions with
  | .error report => .failed "" report w
  | .ok c =>
    let cwd := host.cwd.path
    match (MatrixRunner.standard c ⟨""⟩ (chooseReporter c o.noReport cwd)).plan cwd with
    | .error e => .failed "" (.during "Failed to expand the matrix" e) w
    | .ok jobs =>
      let heading := "Pipeline: " ++ o.config.text ++ " (" ++ toString jobs.length
        ++ " job(s), parallelism " ++ toString c.matrix.parallelism ++ ")"
      .done (unlines (heading :: jobs.flatMap fun (ctx, phases) => planLines ctx phases)) w

/-! ## Init -/

/-- Writes a pipeline file with the default configuration. -/
def init (host : Host) (directory : Path) (force : Bool) (w : World) : Outcome :=
  let file := directory.join ⟨defaultFile⟩
  if w.files.isPresent host.cwd file ∧ ¬force then
    .failed "" ⟨file.text ++ " already exists (use --force to overwrite)", []⟩ w
  else
    match w.files.makeDirectories host.cwd directory with
    | (files, .error fault) =>
      .failed "" (.ofFault ("Failed to create " ++ directory.text) fault) { w with files := files }
    | (files, .ok ()) =>
      let w := { w with files := files }
      match Config.toToml {} with
      | .error e => .failed "" (.ofError e) w
      | .ok text =>
        match w.files.write host.cwd file text.toUTF8 with
        | .error fault => .failed "" (.ofFault ("Failed to write " ++ file.text) fault) w
        | .ok files => .done ("✓ Wrote " ++ file.text ++ "\n") { w with files := files }

/-! ## All commands -/

/-- What is printed for those who ask for the version. -/
def versionText : String := "covpipe 0.1.0\n"

/-- What is printed for those who ask for help. -/
def helpText : String :=
  "Run tests with coverage across an interpreter matrix\n\nUsage: covpipe [OPTIONS] <COMMAND>\n"

def carryOut (host : Host) (stamps : Nat → Stamp) (w : World) : Request → Outcome
  | .run o => run host stamps o w
  | .plan o => plan host o w
  | .init directory force => init host directory force w

/-- Carries out what the arguments ask for, under given variables. -/
def answer (host : Host) (stamps : Nat → Stamp) (env : EnvVars) (args : List String) (w : World) :
    Outcome :=
  match request env args with
  | .ok r => carryOut host stamps w r
  | .error .version => .done versionText w
  | .error .help => .done helpText w
  | .error (.usage text) => ⟨2, "", "error: " ++ text ++ "\n", w⟩

end CoverageMatrix.CommandLine
