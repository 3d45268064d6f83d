import CoverageMatrix.EnvVars
import CoverageMatrix.Shell.Bytes
import CoverageMatrix.Shell.Test

/-!
What a small program is: it takes its arguments, its input and the files, and gives a status, what
it printed and the files it leaves.
-/
namespace CoverageMatrix.Shell

structure Setting where
  /-- How the program was called, which begins its complaints. -/
  called : String
  inShell : Bool := false
  args : List String
  env : EnvVars
  cwd : Files.Location
  input : ByteArray
  files : Files.Tree

structure Effect where
  status : Nat := 0
  out : ByteArray := .empty
  err : ByteArray := .empty
  input : ByteArray := .empty
  files : Files.Tree

abbrev Programs.Program := Setting → Effect

namespace Programs

def faultText : Files.Fault → String
  | .system n => Files.Fault.systemText n
  | fault => fault.message

def printing (s : Setting) (bytes : ByteArray) : Effect :=
  { out := bytes, input := s.input, files := s.files }

def printingText (s : Setting) (text : String) : Effect :=
  printing s (Bytes.ofText text)

def ending (s : Setting) (status : Nat) : Effect :=
  { status := status, input := s.input, files := s.files }

def complaint (s : Setting) (status : Nat) (text : String) : Effect :=
  { ending s status with err := Bytes.ofText (s.called ++ ": " ++ text ++ "\n") }

/-- The effect of a complaint about how the program was called. -/
def misuse (s : Setting) (status : Nat) (text : String) : Effect :=
  complaint s status (text ++ "\nTry '" ++ s.called ++ " --help' for more information.")

/-- An effect followed by another on the files it leaves; the worse status counts. -/
def Effect.then (e : Effect) (next : Files.Tree → Effect) : Effect :=
  let f := next e.files
  { status := max e.status f.status, out := e.out ++ f.out, err := e.err ++ f.err,
    input := f.input, files := f.files }

def each (s : Setting) (operands : List String) (act : Setting → String → Effect) : Effect :=
  operands.foldl (fun e name => Effect.then e fun files => act { s with files := files } name)
    (ending s 0)

/-- Splits arguments into option letters and operands; `--` ends the options. -/
def options : List String → List Char × List String
  | [] => ([], [])
  | "--" :: rest => ([], rest)
  | a :: rest =>
    match a.toList with
    | '-' :: c :: cs =>
      let (more, operands) := options rest
      (c :: cs ++ more, operands)
    | _ =>
      let (more, operands) := options rest
      (more, a :: operands)

def baseName (path : String) : String :=
  let cs := path.toList.reverse.dropWhile (· = '/')
  if cs.isEmpty then (if path.isEmpty then "" else "/")
  else String.ofList (cs.takeWhile (· ≠ '/')).reverse

def directoryName (path : String) : String :=
  let cs := path.toList.reverse.dropWhile (· = '/')
  let cs := cs.dropWhile (· ≠ '/')
  let dir := cs.dropWhile (· = '/')
  if !dir.isEmpty then String.ofList dir.reverse
  else if cs.isEmpty ∧ ¬path.startsWith "/" then "." else "/"

/-- The content of an operand; a dash is the input. -/
def content (s : Setting) (name : String) : Except Files.Fault ByteArray :=
  if name = "-" then .ok s.input else s.files.read s.cwd ⟨name⟩

end Programs
end CoverageMatrix.Shell
