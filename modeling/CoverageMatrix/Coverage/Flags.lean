import CoverageMatrix.Config.Basic

/-!
The arguments that switch coverage on in a test runner.
-/
namespace CoverageMatrix.CoverageFlags

/-- The arguments that follow the test command. -/
def args (flags : CoverageFlags) (package : Option String) (includeTests : Bool) : List String :=
  match flags with
  | nose =>
    ["--with-coverage", "--cover-erase"]
      ++ (package.map fun p => "--cover-package=" ++ p).toList
      ++ (if includeTests then ["--cover-tests"] else [])
  | pytestCov =>
    [match package with
      | some p => "--cov=" ++ p
      | none => "--cov"]
      ++ (if includeTests then ["--cov=tests"] else [])
      ++ ["--cov-report="]

end CoverageMatrix.CoverageFlags
