import CoverageMatrix.Program.World
import CoverageMatrix.Text.Substitute

/-!
A host in which every answer is laid down beforehand: no program is started and no service called.
A command gets the answer of the first rule whose pattern is part of its line, and passes if there
is none.
-/
namespace CoverageMatrix.Scripted

inductive Response where
  | exit (code : Int)
  /-- The program cannot be started. -/
  | spawnError
  | timeout
  /-- The runner itself breaks down. -/
  | breakdown

/-- What a command leaves at a target. -/
inductive Written where
  | file (content : ByteArray) (executable : Bool)
  | directory

/-- The answer to the commands that hold a pattern. -/
structure Rule where
  pattern : String
  /-- What is left at which target before the command ends. A target `$NAME` is the file that the
  variable names, any other is seen from the command's directory. -/
  writes : List (String × Written) := []
  response : Response

/-- The file that a target means for a command; none for a variable that is not set. -/
def target? (i : Invocation) (name : String) : Option Path :=
  match name.toList with
  | '$' :: rest =>
    match i.env.get? (String.ofList rest) with
    | some "" | none => none
    | some path => some ⟨path⟩
  | _ => some (i.cwd.join ⟨name⟩)

/-- The files with something put at a path, whose directories are made; what cannot be put is left
out. -/
def Written.placeIn (files : Files.Tree) (cwd : Files.Location) (path : Path) :
    Written → Files.Tree
  | directory => (files.makeDirectories cwd path).1
  | file content executable =>
    let files := (files.makeDirectories cwd (path.parent?.getD path)).1
    let files := ((files.write cwd path content).toOption).getD files
    if executable then ((files.setExecutable cwd path true).toOption).getD files else files

def writeTarget (cwd : Files.Location) (i : Invocation) (files : Files.Tree)
    (write : String × Written) : Files.Tree :=
  match target? i write.1 with
  | none => files
  | some path => write.2.placeIn files cwd path

def Response.outcome (i : Invocation) : Response → Option (Except PipelineError CommandOutput)
  | exit code => some (.ok ⟨code, "", "", 0⟩)
  | spawnError => some (.error (.spawn i.program "scripted spawn failure"))
  | timeout => some (.error (.timeout i.program i.timeoutSecs))
  | breakdown => none

structure Script where
  rules : List Rule
  /-- The answers of the reporting service. -/
  opening : Except PipelineError Unit := .ok ()
  closing : Except PipelineError Unit := .ok ()

namespace Script

def reply (s : Script) (cwd : Files.Location) (i : Invocation) (files : Files.Tree) :
    CommandReply :=
  match s.rules.find? fun rule => Text.contains i.line rule.pattern with
  | none => ⟨(Response.exit 0).outcome i, files⟩
  | some rule => ⟨rule.response.outcome i, rule.writes.foldl (writeTarget cwd i) files⟩

def host (s : Script) (cwd : Files.Location) (download : String → Except PipelineError ByteArray) :
    Host where
  cwd := cwd
  command i w := s.reply cwd i w.files
  service
    | .opening _ _, _ => s.opening
    | .closing _ _ _, _ => s.closing
  download url _ := download url

end Script
end CoverageMatrix.Scripted
