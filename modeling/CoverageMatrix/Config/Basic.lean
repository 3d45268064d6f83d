import CoverageMatrix.EnvVars
import CoverageMatrix.Path

/-!
The configuration of a pipeline: which interpreter versions to test, what to install before, how to
run the tests and how to export their coverage. A default-constructed configuration is a usable one.
Commands are lists of arguments that may hold placeholders for the job they run in.
-/
namespace CoverageMatrix

/-- A command before its placeholders are filled in: the program and its arguments. -/
abbrev CommandTemplate := List String

/-- A package manager that an install action goes to. -/
inductive Installer where
  | system
  /-- The interpreter's. -/
  | language
deriving DecidableEq

def Installer.name : Installer → String
  | system => "system"
  | language => "language"

def Installer.byName : List (String × Installer) :=
  [Installer.system, .language].map fun i => (i.name, i)

/-- One entry of the dependencies: a named package or a local directory. -/
structure InstallAction where
  installer : Installer
  package : Option String := none
  path : Option Path := none
deriving DecidableEq

/-- The flags by which a test runner switches coverage on. -/
inductive CoverageFlags where
  | nose
  | pytestCov
deriving DecidableEq

def CoverageFlags.name : CoverageFlags → String
  | nose => "nose"
  | pytestCov => "pytest-cov"

def CoverageFlags.byName : List (String × CoverageFlags) :=
  [CoverageFlags.nose, .pytestCov].map fun f => (f.name, f)

namespace Config

/-- How the reporting helper is found and run. -/
structure Reporter where
  /-- The identifier for the reporting service, usually given on the command line. -/
  id : Option String := none
  /-- The variable through which the helper gets the identifier. -/
  idEnv : String := "CC_TEST_REPORTER_ID"
  helperUrl : String :=
    "https://codeclimate.com/downloads/test-reporter/test-reporter-latest-linux-amd64"
  /-- A local helper to copy instead of downloading one. -/
  helperFile : Option Path := none
  /-- Where helpers go, seen from the working directory; each job's copy has the job as its end. -/
  helperPath : Path := ⟨"cc-test-reporter"⟩
  /-- How long a helper may run, in seconds; zero sets no limit. -/
  timeoutSecs : Nat := 300
deriving DecidableEq

structure Matrix where
  interpreter : String := "python"
  versions : List String := ["2.7"]
  /-- How many jobs may run at a time. -/
  parallelism : Nat := 1
deriving DecidableEq

/-- The system package manager's commands. -/
structure SystemInstaller where
  command : CommandTemplate := ["sudo", "apt-get", "install", "-qq"]
  /-- Refreshes the package index before a job's first system package; empty to leave it out. -/
  refresh : CommandTemplate := ["sudo", "apt-get", "update", "-qq"]
deriving DecidableEq

/-- The interpreter's package manager's command. -/
structure LanguageInstaller where
  command : CommandTemplate := ["pip", "install"]
deriving DecidableEq

structure Installers where
  system : SystemInstaller := {}
  language : LanguageInstaller := {}
deriving DecidableEq

def Installers.commandFor (c : Installers) : Installer → CommandTemplate
  | .system => c.system.command
  | .language => c.language.command

structure Tests where
  command : CommandTemplate := ["nosetests"]
  package : Option String := none
  /-- Whether the tests themselves count. -/
  includeTests : Bool := true
  flags : CoverageFlags := .nose
  /-- The coverage data file in the working directory; each job's has the job as its end. -/
  coverageFile : Path := ⟨".coverage"⟩
  /-- The variable that points the coverage tool at the job's data file. -/
  coverageEnv : String := "COVERAGE_FILE"
  /-- How long the tests may run, in seconds; zero sets no limit. -/
  timeoutSecs : Nat := 0
deriving DecidableEq

structure Export where
  command : CommandTemplate := ["coverage", "xml", "-o", "coverage-\x7bjob\x7d.xml"]
  /-- The report that the command writes, seen from the working directory. -/
  output : String := "coverage-\x7bjob\x7d.xml"
deriving DecidableEq

end Config

structure Config where
  workdir : Path := ⟨"."⟩
  /-- Variables that every job gets. -/
  env : EnvVars := .empty
  reporter : Config.Reporter := {}
  matrix : Config.Matrix := {}
  /-- What to install before the tests, in order. -/
  dependencies : List InstallAction := []
  installers : Config.Installers := {}
  tests : Config.Tests := {}
  exports : Config.Export := {}
deriving DecidableEq

instance : Inhabited Config := ⟨{}⟩

end CoverageMatrix
