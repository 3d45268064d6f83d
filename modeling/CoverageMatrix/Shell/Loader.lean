import CoverageMatrix.Shell.Programs

/-!
How programs are found. An executable file is either a program of the system, or a script that names
the program which reads it, or plain text that a shell may read; a name without a slash is looked up
along `PATH`.
-/
namespace CoverageMatrix.Shell.Loader

/-- The programs that every system has, beside those of `Programs`. -/
def shells : List String := ["sh", "dash", "bash", "env"]

def programDirectories : List Files.Location := [["bin"], ["bin", "usr"]]

def directories : List Files.Location :=
  [["bin"], ["usr"], ["bin", "usr"], ["local", "usr"], ["bin", "local", "usr"], ["dev"], ["etc"],
   ["tmp"], ["var"], ["root"], ["home"], ["proc"]]

/-- The files of a system on which nothing has been done. -/
def files : Files.Tree where
  entries :=
    directories.map (·, Files.Entry.directory)
      ++ [(["null", "dev"], .sink)]
      ++ programDirectories.flatMap fun dir =>
        (shells ++ Programs.byName.map (·.1)).map fun name =>
          (name :: dir, .program name)

/-- Where programs are looked up if nothing else is said. -/
def defaultPath : String := "/usr/local/bin:/usr/bin:/bin"

/-- Where a shell looks programs up if it is not told. -/
def shellPath : String := "/usr/local/sbin:/usr/local/bin:/usr/sbin:/usr/bin:/sbin:/bin"

/-- A program with its arguments; the first says how it was called. -/
structure Loaded where
  program : String
  argv : List String

/-- The interpreter that a script names, with its argument. -/
def interpreter? (content : ByteArray) : Option (String × List String) :=
  match content.toList with
  | 35 :: 33 :: rest =>
    let isSpace (c : Char) : Bool := c = ' ' || c = '\t'
    let line := Text.Utf8.decodeLenient (rest.takeWhile (· ≠ Bytes.lineEnd))
    let line := line.dropWhile isSpace
    let argument := ((line.dropWhile (!isSpace ·)).dropWhile isSpace).reverse.dropWhile isSpace
    some (String.ofList (line.takeWhile (!isSpace ·)),
      if argument.isEmpty then [] else [String.ofList argument.reverse])
  | _ => none

/-- How many interpreters a script may go through. -/
def interpreterLimit : Nat := 5

def load (t : Files.Tree) (cwd : Files.Location) :
    Nat → String → List String → Except Files.Fault Loaded
  | 0, _, _ => .error (.system 40)
  | fuel + 1, path, argv => do
    match ← t.find cwd ⟨path⟩ with
    | (_, .program name) => pure ⟨name, argv⟩
    | (_, .file content true) =>
      match interpreter? content with
      | some (program, args) =>
        if program.isEmpty then throw .noExec
        else load t cwd fuel program (program :: args ++ path :: argv.tail)
      | none => throw .noExec
    | _ => throw .permissionDenied

/-- Whether a file begins like text: on its first line, as far as it is looked at, are no controls
but those that lay text out. -/
def beginsAsText (content : ByteArray) : Bool :=
  ((content.toList.take 128).takeWhile (· ≠ Bytes.lineEnd)).all fun b =>
    32 ≤ b && b ≠ 127 || 9 ≤ b && b ≤ 15 || b = 27

inductive Executable where
  | program (l : Loaded)
  /-- A file that names no program to read it, with the arguments for one that does, and whether it
  begins like text. -/
  | plain (path : String) (args : List String) (asText : Bool)

/-- The program that runs an executable, when plain text is left to a shell. -/
def Executable.throughShell : Executable → Loaded
  | program l => l
  | plain path args _ => ⟨"sh", "/bin/sh" :: path :: args⟩

def executable (t : Files.Tree) (cwd : Files.Location) (path : String) (argv : List String) :
    Except Files.Fault Executable :=
  match load t cwd interpreterLimit path argv with
  | .ok l => .ok (.program l)
  | .error (.system 8) => do
    let (_, entry) ← t.find cwd ⟨path⟩
    pure (.plain path argv.tail (beginsAsText entry.bytes))
  | .error fault => .error fault

/-- Looks a name up in directories. A file that may not be executed is the reason for failing if no
other is found, else the reason is the last one. -/
def search (t : Files.Tree) (cwd : Files.Location) (argv : List String) (name : String)
    (reason : Files.Fault) : List String → Except Files.Fault Executable
  | [] => .error reason
  | dir :: rest =>
    let path := if dir.isEmpty then name else dir ++ "/" ++ name
    match executable t cwd path argv with
    | .ok e => .ok e
    | .error (.system n) =>
      if n = 2 ∨ n = 20 ∨ n = 13 then
        let reason := if reason = .permissionDenied then reason else .system n
        search t cwd argv name reason rest
      else .error (.system n)
    | .error fault => .error fault

/-- The path along which a name is found, if it is. -/
def pathOf? (t : Files.Tree) (cwd : Files.Location) (path name : String) : Option String :=
  let places := if name.toList.contains '/' then [name]
    else (path.splitOn ":").map fun dir => if dir.isEmpty then name else dir ++ "/" ++ name
  places.find? fun place => (executable t cwd place [name]).isOk

/-- The path of a script that is to be read: a name without a slash is looked up. -/
def scriptPath? (t : Files.Tree) (cwd : Files.Location) (path name : String) : Option String :=
  if name.toList.contains '/' then some name
  else
    let places := (path.splitOn ":").map fun dir => if dir.isEmpty then name else dir ++ "/" ++ name
    places.find? fun place => (t.find cwd ⟨place⟩).toOption.any (·.2.isFile)

/-- Finds what a command names, as a shell does: an empty name is looked up like any other. -/
def lookUp (t : Files.Tree) (cwd : Files.Location) (path : String) (argv : List String) :
    Except Files.Fault Executable :=
  let name := argv.headD ""
  if name.toList.contains '/' then executable t cwd name argv
  else search t cwd argv name .notFound (path.splitOn ":")

def find (t : Files.Tree) (cwd : Files.Location) (path : String) (argv : List String) :
    Except Files.Fault Executable :=
  if (argv.headD "").isEmpty then .error .notFound else lookUp t cwd path argv

end CoverageMatrix.Shell.Loader
