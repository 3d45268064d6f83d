import CoverageMatrix.Config.Basic
import CoverageMatrix.Data.Decode

/-!
The document form of a configuration. Every section is a table with its fields in a fixed order;
fields that are absent are left out when written and take their default when read. An entry that is
no field of its section is an error.
-/
namespace CoverageMatrix

open Decode (Dialect Field Result)

/-! ## Parts -/

def Data.texts (l : List String) : Data :=
  .list (l.map .text)

/-- An entry for a value that is there, and none for one that is not. -/
def Data.entryIf {α : Type} (name : String) (form : α → Data) : Option α → List (String × Data)
  | some a => [(name, form a)]
  | none => []

namespace Path

def toData (p : Path) : Data := .text p.text

def decode (x : Fragment) : Result Path := (Decode.pathText x).map Path.mk

end Path

namespace EnvVars

def toData (vars : EnvVars) : Data :=
  .table (vars.entries.map fun e => (e.1, .text e.2))

/-- Reads variables; of two with one name the later counts. -/
def decode (x : Fragment) : Result EnvVars :=
  (Decode.tableOf Decode.text x).map EnvVars.ofList

end EnvVars

namespace InstallAction

def toData (a : InstallAction) : Data :=
  .table ([("installer", .text a.installer.name)]
    ++ Data.entryIf "package" .text a.package ++ Data.entryIf "path" Path.toData a.path)

def decode (dialect : Dialect) (x : Fragment) : Result InstallAction := do
  let installer := Decode.variant dialect Installer.byName
  let package := Decode.optional Decode.text
  let path := Decode.optional Path.decode
  let r ← Decode.record dialect "struct InstallAction" .refused
    [.of "installer" installer, .defaulted "package" package, .defaulted "path" path] x
  return {
    installer := ← r.get "installer" installer
    package := ← r.getD "package" package none
    path := ← r.getD "path" path none }

end InstallAction

namespace Config

def commandOf : Fragment → Result CommandTemplate :=
  Decode.listOf Decode.text

/-! ## Sections -/

namespace Reporter

def toData (c : Reporter) : Data :=
  .table (Data.entryIf "id" .text c.id
    ++ [("id_env", .text c.idEnv), ("helper_url", .text c.helperUrl)]
    ++ Data.entryIf "helper_file" Path.toData c.helperFile
    ++ [("helper_path", c.helperPath.toData), ("timeout_secs", .int c.timeoutSecs)])

def decode (dialect : Dialect) (x : Fragment) : Result Reporter := do
  let id := Decode.optional Decode.text
  let file := Decode.optional Path.decode
  let timeout := Decode.natural "u64"
  let r ← Decode.record dialect "struct ReporterConfig" .refused
    [.defaulted "id" id, .defaulted "id_env" Decode.text, .defaulted "helper_url" Decode.text,
     .defaulted "helper_file" file, .defaulted "helper_path" Path.decode,
     .defaulted "timeout_secs" timeout] x
  let absent : Reporter := {}
  return {
    id := ← r.getD "id" id absent.id
    idEnv := ← r.getD "id_env" Decode.text absent.idEnv
    helperUrl := ← r.getD "helper_url" Decode.text absent.helperUrl
    helperFile := ← r.getD "helper_file" file absent.helperFile
    helperPath := ← r.getD "helper_path" Path.decode absent.helperPath
    timeoutSecs := ← r.getD "timeout_secs" timeout absent.timeoutSecs }

end Reporter

namespace Matrix

def toData (c : Matrix) : Data :=
  .table [("interpreter", .text c.interpreter), ("versions", .texts c.versions),
    ("parallelism", .int c.parallelism)]

def decode (dialect : Dialect) (x : Fragment) : Result Matrix := do
  let versions := Decode.listOf Decode.text
  let parallelism := Decode.natural "usize"
  let r ← Decode.record dialect "struct MatrixConfig" .refused
    [.defaulted "interpreter" Decode.text, .defaulted "versions" versions,
     .defaulted "parallelism" parallelism] x
  let absent : Matrix := {}
  return {
    interpreter := ← r.getD "interpreter" Decode.text absent.interpreter
    versions := ← r.getD "versions" versions absent.versions
    parallelism := ← r.getD "parallelism" parallelism absent.parallelism }

end Matrix

namespace SystemInstaller

def toData (c : SystemInstaller) : Data :=
  .table [("command", .texts c.command), ("refresh", .texts c.refresh)]

def decode (dialect : Dialect) (x : Fragment) : Result SystemInstaller := do
  let r ← Decode.record dialect "struct SystemInstaller" .refused
    [.defaulted "command" commandOf, .defaulted "refresh" commandOf] x
  let absent : SystemInstaller := {}
  return {
    command := ← r.getD "command" commandOf absent.command
    refresh := ← r.getD "refresh" commandOf absent.refresh }

end SystemInstaller

namespace LanguageInstaller

def toData (c : LanguageInstaller) : Data :=
  .table [("command", .texts c.command)]

def decode (dialect : Dialect) (x : Fragment) : Result LanguageInstaller := do
  let r ← Decode.record dialect "struct LanguageInstaller" .refused
    [.defaulted "command" commandOf] x
  let absent : LanguageInstaller := {}
  return { command := ← r.getD "command" commandOf absent.command }

end LanguageInstaller

namespace Installers

def toData (c : Installers) : Data :=
  .table [("system", c.system.toData), ("language", c.language.toData)]

def decode (dialect : Dialect) (x : Fragment) : Result Installers := do
  let system := SystemInstaller.decode dialect
  let language := LanguageInstaller.decode dialect
  let r ← Decode.record dialect "struct InstallersConfig" .refused
    [.defaulted "system" system, .defaulted "language" language] x
  return {
    system := ← r.getD "system" system {}
    language := ← r.getD "language" language {} }

end Installers

namespace Tests

def toData (c : Tests) : Data :=
  .table ([("command", .texts c.command)] ++ Data.entryIf "package" .text c.package
    ++ [("include_tests", .bool c.includeTests), ("flags", .text c.flags.name),
      ("coverage_file", c.coverageFile.toData), ("coverage_env", .text c.coverageEnv),
      ("timeout_secs", .int c.timeoutSecs)])

def decode (dialect : Dialect) (x : Fragment) : Result Tests := do
  let package := Decode.optional Decode.text
  let flags := Decode.variant dialect CoverageFlags.byName
  let timeout := Decode.natural "u64"
  let r ← Decode.record dialect "struct TestConfig" .refused
    [.defaulted "command" commandOf, .defaulted "package" package,
     .defaulted "include_tests" Decode.bool, .defaulted "flags" flags,
     .defaulted "coverage_file" Path.decode, .defaulted "coverage_env" Decode.text,
     .defaulted "timeout_secs" timeout] x
  let absent : Tests := {}
  return {
    command := ← r.getD "command" commandOf absent.command
    package := ← r.getD "package" package absent.package
    includeTests := ← r.getD "include_tests" Decode.bool absent.includeTests
    flags := ← r.getD "flags" flags absent.flags
    coverageFile := ← r.getD "coverage_file" Path.decode absent.coverageFile
    coverageEnv := ← r.getD "coverage_env" Decode.text absent.coverageEnv
    timeoutSecs := ← r.getD "timeout_secs" timeout absent.timeoutSecs }

end Tests

namespace Export

def toData (c : Export) : Data :=
  .table [("command", .texts c.command), ("output", .text c.output)]

def decode (dialect : Dialect) (x : Fragment) : Result Export := do
  let r ← Decode.record dialect "struct ExportConfig" .refused
    [.defaulted "command" commandOf, .defaulted "output" Decode.text] x
  let absent : Export := {}
  return {
    command := ← r.getD "command" commandOf absent.command
    output := ← r.getD "output" Decode.text absent.output }

end Export

/-! ## The whole -/

def toData (c : Config) : Data :=
  .table [("workdir", c.workdir.toData), ("env", c.env.toData), ("reporter", c.reporter.toData),
    ("matrix", c.matrix.toData), ("dependencies", .list (c.dependencies.map InstallAction.toData)),
    ("installers", c.installers.toData), ("tests", c.tests.toData), ("export", c.exports.toData)]

def decode (dialect : Dialect) (x : Fragment) : Result Config := do
  let reporter := Reporter.decode dialect
  let matrix := Matrix.decode dialect
  let dependencies := Decode.listOf (InstallAction.decode dialect)
  let installers := Installers.decode dialect
  let tests := Tests.decode dialect
  let exports := Export.decode dialect
  let r ← Decode.record dialect "struct PipelineConfig" .refused
    [.defaulted "workdir" Path.decode, .defaulted "env" EnvVars.decode,
     .defaulted "reporter" reporter, .defaulted "matrix" matrix,
     .defaulted "dependencies" dependencies, .defaulted "installers" installers,
     .defaulted "tests" tests, .defaulted "export" exports] x
  let absent : Config := {}
  return {
    workdir := ← r.getD "workdir" Path.decode absent.workdir
    env := ← r.getD "env" EnvVars.decode absent.env
    reporter := ← r.getD "reporter" reporter absent.reporter
    matrix := ← r.getD "matrix" matrix absent.matrix
    dependencies := ← r.getD "dependencies" dependencies absent.dependencies
    installers := ← r.getD "installers" installers absent.installers
    tests := ← r.getD "tests" tests absent.tests
    exports := ← r.getD "export" exports absent.exports }

end Config
end CoverageMatrix
