import CoverageMatrix.Shell.Programs.Basic

/-!
Programs that list, make, copy, move and remove files.
-/
namespace CoverageMatrix.Shell.Programs

/-! ## Listing -/

/-- Prints the names in directories; with several operands, files first and each directory under its
name. -/
def ls (s : Setting) : Effect :=
  let (letters, operands) := options s.args
  let operands := (if operands.isEmpty then ["."] else operands).mergeSort (· ≤ ·)
  let found := operands.map fun name => (name, s.files.find s.cwd ⟨name⟩)
  let faults := found.filterMap fun f =>
    match f.2 with
    | .error fault =>
      some (s.called ++ ": cannot access '" ++ f.1 ++ "': " ++ faultText fault ++ "\n")
    | .ok _ => none
  let asDirectory (e : String × Except Files.Fault (Files.Location × Files.Entry)) :
      Option (String × Files.Location) :=
    match e.2 with
    | .ok (l, .directory) => if letters.contains 'd' then none else some (e.1, l)
    | _ => none
  let plain := found.filter fun f => f.2.toOption.isSome && (asDirectory f).isNone
  let directories := found.filterMap asDirectory
  let listing (l : Files.Location) : String :=
    let names := (s.files.names l).filter fun n =>
      letters.contains 'a' || letters.contains 'A' || !n.startsWith "."
    let names := if letters.contains 'a' then "." :: ".." :: names else names
    String.join (names.map (· ++ "\n"))
  let block (d : String × Files.Location) : String :=
    (if 1 < operands.length then d.1 ++ ":\n" else "") ++ listing d.2
  let blocks := (if plain.isEmpty then [] else [String.join (plain.map fun f => f.1 ++ "\n")])
    ++ directories.map block
  { printingText s (String.intercalate "\n" blocks) with
    status := if faults.isEmpty then 0 else 2, err := Bytes.ofText (String.join faults) }

/-! ## Copying and moving -/

def changing (s : Setting) (change : Except Files.Fault Files.Tree)
    (complain : Files.Fault → String) : Effect :=
  match change with
  | .ok files => { input := s.input, files := files }
  | .error fault => complaint s 1 (complain fault)

/-- The path at which something lands that is put at a target: inside of a directory. -/
def landing (s : Setting) (source target : String) : String :=
  if s.files.isDirectory s.cwd ⟨target⟩ then
    ((Path.mk target).join ⟨baseName source⟩).text
  else target

/-- The files with all below one location put below another as well. -/
def copyBelow (files : Files.Tree) (source target : Files.Location) : Files.Tree :=
  (files.entries.filter fun e => source.isSuffixOf e.1).foldl
    (fun t e => t.put (e.1.take (e.1.length - source.length) ++ target) e.2) files

/-- Applies a program to sources and a target, which has to be a directory for several sources. -/
def toTarget (s : Setting) (operands : List String) (act : Setting → String → String → Effect) :
    Effect :=
  let sources := operands.dropLast
  let target := operands.getLastD ""
  match sources with
  | [] =>
    misuse s 1 (match operands with
      | [] => "missing file operand"
      | a :: _ => "missing destination file operand after '" ++ a ++ "'")
  | [source] => act s source (landing s source target)
  | sources =>
    match s.files.find s.cwd ⟨target⟩ with
    | .ok (_, .directory) => each s sources fun s source => act s source (landing s source target)
    | .ok _ => complaint s 1 ("target '" ++ target ++ "': " ++ faultText .notDirectory)
    | .error fault => complaint s 1 ("target '" ++ target ++ "': " ++ faultText fault)

def cp (s : Setting) : Effect :=
  let (letters, operands) := options s.args
  toTarget s operands fun s source place =>
    match s.files.find s.cwd ⟨source⟩ with
    | .error fault => complaint s 1 ("cannot stat '" ++ source ++ "': " ++ faultText fault)
    | .ok (l, .directory) =>
      if letters.any (· ∈ ['r', 'R', 'a']) then
        match s.files.locate s.cwd ⟨place⟩ with
        | .ok l' => { ending s 0 with files := copyBelow s.files l l' }
        | .error fault =>
          complaint s 1 ("cannot create directory '" ++ place ++ "': " ++ faultText fault)
      else complaint s 1 ("-r not specified; omitting directory '" ++ source ++ "'")
    | .ok (l, e) =>
      if (s.files.locate s.cwd ⟨place⟩).toOption = some l then
        complaint s 1 ("'" ++ source ++ "' and '" ++ place ++ "' are the same file")
      else
        changing s (do
          let (l', files) ← s.files.openNew s.cwd ⟨place⟩ e.isExecutable
          match files.get? l' with
          | some (.file _ x) => pure (files.put l' (e.copied x))
          | _ => pure files) fun fault =>
            "cannot create regular file '" ++ place ++ "': "
              ++ faultText (if place.endsWith "/" then .notDirectory else fault)

def mv (s : Setting) : Effect :=
  let (_, operands) := options s.args
  toTarget s operands fun s source place =>
    match s.files.find s.cwd ⟨source⟩ with
    | .error fault => complaint s 1 ("cannot stat '" ++ source ++ "': " ++ faultText fault)
    | .ok (l, e) =>
      let failing (fault : Files.Fault) : Effect :=
        complaint s 1 ("cannot move '" ++ source ++ "' to '" ++ place ++ "': " ++ faultText fault)
      match s.files.locate s.cwd ⟨place⟩ with
      | .error fault => failing fault
      | .ok l' =>
        if l = l' then complaint s 1 ("'" ++ source ++ "' and '" ++ place ++ "' are the same file")
        else if s.files.get? l'.tail ≠ some .directory then failing .notFound
        else
          match e with
          | .directory => { ending s 0 with files := (copyBelow s.files l l').eraseBelow l }
          | e => { ending s 0 with files := (s.files.erase l).put l' e }

/-! ## Making and removing -/

def rm (s : Setting) : Effect :=
  let (letters, operands) := options s.args
  let force := letters.contains 'f'
  if operands.isEmpty ∧ ¬force then misuse s 1 "missing operand"
  else each s operands fun s name =>
    match s.files.find s.cwd ⟨name⟩ with
    | .error fault =>
      if force then ending s 0
      else complaint s 1 ("cannot remove '" ++ name ++ "': " ++ faultText fault)
    | .ok (l, .directory) =>
      if letters.contains 'r' ∨ letters.contains 'R' then
        { ending s 0 with files := s.files.eraseBelow l }
      else complaint s 1 ("cannot remove '" ++ name ++ "': " ++ faultText .isDirectory)
    | .ok (l, _) => { ending s 0 with files := s.files.erase l }

def mkdir (s : Setting) : Effect :=
  let (letters, operands) := options s.args
  if operands.isEmpty then misuse s 1 "missing operand"
  else each s operands fun s name =>
    let complain (fault : Files.Fault) : String :=
      "cannot create directory '" ++ name ++ "': " ++ faultText fault
    if letters.contains 'p' then
      match s.files.makeAll s.cwd ⟨name⟩ with
      | (files, .ok ()) => { ending s 0 with files := files }
      | (files, .error fault) => { complaint s 1 (complain fault) with files := files }
    else changing s (s.files.makeDirectory s.cwd ⟨name⟩) complain

/-- Removes empty directories. -/
def rmdir (s : Setting) : Effect :=
  let (_, operands) := options s.args
  if operands.isEmpty then misuse s 1 "missing operand"
  else each s operands fun s name =>
    changing s (s.files.removeDirectory s.cwd ⟨name⟩) fun fault =>
      "failed to remove '" ++ name ++ "': " ++ faultText fault

def touch (s : Setting) : Effect :=
  let (_, operands) := options s.args
  if operands.isEmpty then misuse s 1 "missing file operand"
  else each s operands fun s name =>
    if s.files.isPresent s.cwd ⟨name⟩ then ending s 0
    else changing s (s.files.write s.cwd ⟨name⟩ .empty) fun fault =>
      if fault = .isDirectory then
        "setting times of '" ++ name ++ "': " ++ faultText .notFound
      else "cannot touch '" ++ name ++ "': " ++ faultText fault

/-- Whether a mode makes a file executable; nothing if it leaves that as it is. -/
def executableMode? (mode : String) : Option Bool :=
  let cs := mode.toList
  if cs.all Char.isDigit then some (cs.any fun c => (c.toNat - 48) % 2 = 1)
  else if cs.contains 'x' then some (!cs.contains '-')
  else none

def chmod (s : Setting) : Effect :=
  match s.args with
  | mode :: operands =>
    each s operands fun s name =>
      changing s (match executableMode? mode with
        | some x => s.files.setExecutable s.cwd ⟨name⟩ x
        | none => (s.files.find s.cwd ⟨name⟩).map fun _ => s.files) fun fault =>
        "cannot access '" ++ name ++ "': " ++ faultText fault
  | [] => misuse s 1 "missing operand"

/-- Copies its input to files and to its output. -/
def tee (s : Setting) : Effect :=
  let (letters, operands) := options s.args
  let e := each s operands fun s name =>
    changing s (if letters.contains 'a' then s.files.writeBehind s.cwd ⟨name⟩ s.input
      else s.files.write s.cwd ⟨name⟩ s.input) fun fault =>
      name ++ ": " ++ faultText fault
  { e with out := s.input ++ e.out, input := .empty }

end CoverageMatrix.Shell.Programs
