import CoverageMatrix.Shell.Programs.Changes
import CoverageMatrix.Shell.Programs.Lines
import CoverageMatrix.Shell.Programs.Printing

/-!
The small programs that scripts are made of, by their names.
-/
namespace CoverageMatrix.Shell.Programs

def byName : List (String × Program) :=
  [("true", (ending · 0)), ("false", (ending · 1)), ("echo", echo), ("printf", printf),
   ("pwd", pwd), ("seq", seq), ("printenv", printenv), ("basename", basename),
   ("dirname", dirname), ("sleep", sleep), ("test", test), ("[", bracket), ("cat", cat),
   ("tac", tac), ("head", head), ("tail", tail), ("wc", wc), ("grep", grep), ("sort", sort),
   ("uniq", uniq), ("cut", cut), ("tr", tr), ("cmp", cmp), ("ls", ls), ("cp", cp), ("mv", mv),
   ("rm", rm), ("mkdir", mkdir), ("rmdir", rmdir), ("touch", touch), ("chmod", chmod), ("tee", tee),
   ("sync", (ending · 0))]

/-- The programs that the shell has itself, which then word their complaints its way. -/
def ofShell : List (String × Program) :=
  [("true", (ending · 0)), ("false", (ending · 1)), ("echo", plainEcho), ("printf", printf),
   ("pwd", pwd), ("test", test), ("[", bracket)]

end CoverageMatrix.Shell.Programs
