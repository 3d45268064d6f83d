import CoverageMatrix.Config.Form
import CoverageMatrix.Config.Valid
import CoverageMatrix.Files.Tree
import CoverageMatrix.Toml.Document
import CoverageMatrix.Toml.Writer

/-!
Pipeline files: a configuration written in TOML. A file is read only if it has the form of a
configuration and describes a pipeline that can be run.
-/
namespace CoverageMatrix.Config

/-- Reads the text of a pipeline file; `path` names it in errors. -/
def ofFileText (path : Path) (text : String) : Except PipelineError Config := do
  match Toml.parse? text with
  | none => throw (.configParse path .malformed)
  | some d =>
    match decode .toml (.ofData d) with
    | .error e => throw (.configParse path (.illTyped e))
    | .ok c =>
      c.validate
      pure c

/-- Reads a pipeline that is held in memory. -/
def ofToml (text : String) : Except PipelineError Config :=
  ofFileText ⟨"<inline>"⟩ text

/-- The pipeline file of a configuration. Only numbers can be too large for one. -/
def toToml (c : Config) : Except PipelineError String :=
  match Toml.document? c.toData with
  | some text => .ok text
  | none => .error (.invalidConfig .numberTooLarge)

def load (files : Files.Tree) (cwd : Files.Location) (path : Path) : Except PipelineError Config :=
  match files.readText cwd path with
  | .error fault => .error (.io fault)
  | .ok text => ofFileText path text

end CoverageMatrix.Config
