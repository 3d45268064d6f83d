import CoverageMatrix.CommandLine.Run
import CoverageMatrix.Job.Stamp
import CoverageMatrix.Shell.Host

/-!
The program. The current directory is read into a tree of files, the command line is answered on it,
and what changed is written back; nothing is decided here.
-/
namespace CoverageMatrix.Main

open Files (Entry Location Tree)

/-- Reads what stands in a directory. A file is taken to be executable if it begins like a
script. -/
partial def readBelow (l : Location) (entries : List (Location × Entry)) :
    IO (List (Location × Entry)) := do
  let dir := (← IO.currentDir) / l.path.text
  let mut entries := entries
  for e in ← dir.readDir do
    let here := e.fileName :: l
    if ← e.path.isDir then
      entries ← readBelow here ((here, .directory) :: entries)
    else
      let content ← IO.FS.readBinFile e.path
      entries := (here, .file content (content.toList.take 2 = [35, 33])) :: entries
  return entries

/-- The files of a system with a directory and all that leads to it. -/
def withDirectory (l : Location) (t : Tree) : Tree :=
  ((List.range l.length).map fun n => l.drop n).foldl (fun t place => t.put place .directory) t

def writeEntry (l : Location) (e : Entry) : IO Unit := do
  let path := (← IO.currentDir) / l.path.text
  match e with
  | .directory => IO.FS.createDirAll path
  | .file content executable =>
    IO.FS.writeBinFile path content
    if executable then
      let all : IO.AccessRight := ⟨true, true, true⟩
      let most : IO.AccessRight := ⟨true, false, true⟩
      IO.setAccessRights path ⟨all, most, most⟩
  | .program _ | .sink => pure ()

/-- Writes back what changed below a directory. -/
def writeBack (cwd : Location) (before after : Tree) : IO Unit := do
  for (l, e) in before.entries do
    if cwd.isSuffixOf l ∧ l ≠ cwd ∧ (after.get? l).isNone then
      match e with
      | .file _ _ => IO.FS.removeFile ((← IO.currentDir) / l.path.text)
      | _ => pure ()
  let isNew (e : Location × Entry) : Bool :=
    cwd.isSuffixOf e.1 && e.1 ≠ cwd && before.get? e.1 ≠ some e.2
  for (l, e) in (after.entries.filter isNew).mergeSort fun a b => a.1.length ≤ b.1.length do
    writeEntry l e

def stamp : IO Stamp := do
  let bytes ← IO.getRandomBytes 16
  let now := (← ((← IO.currentDir) / "/proc/self").metadata).modified
  return ⟨Stamp.identifier bytes.toList, Stamp.moment now.sec.toNat⟩

def environment : IO EnvVars := do
  let names := [CommandLine.idVariable, "PATH", "HOME", "LANG"]
  let pairs ← names.filterMapM fun name => do
    return (← IO.getEnv name).map fun value => (name, value)
  return .ofList pairs

def answer (args : List String) : IO UInt32 := do
  let cwd := (Path.mk (← IO.currentDir).toString).components.reverse
  let here := withDirectory cwd Shell.Loader.files
  let before : Tree := ⟨(← readBelow cwd []) ++ here.entries⟩
  let env ← environment
  let stamps ← (List.range 1000).mapM fun _ => stamp
  let outcome := CommandLine.answer (Shell.host cwd env) (fun n => stamps.getD n ⟨"", ""⟩) env args
    ⟨before, []⟩
  writeBack cwd before outcome.world.files
  IO.print outcome.stdout
  IO.eprint outcome.stderr
  return UInt32.ofNat (outcome.exitCode % 256).toNat

end CoverageMatrix.Main

/-- Answers the command line. -/
def main (args : List String) : IO UInt32 :=
  CoverageMatrix.Main.answer args
