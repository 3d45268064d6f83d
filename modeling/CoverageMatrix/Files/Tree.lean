import CoverageMatrix.Files.Fault
import CoverageMatrix.Path
import CoverageMatrix.Text.Utf8

/-!
A file system as a value: what stands at each location. Paths are resolved as POSIX says: every
component but the last has to be a directory, `..` goes up, and a slash at the end asks for a
directory. Each operation gives the tree it leaves behind, also when it fails.
-/
namespace CoverageMatrix.Files

/-- Where a file stands: the names that lead to it, innermost first. -/
abbrev Location := List String

def Location.path (l : Location) : Path :=
  ⟨"/" ++ String.intercalate "/" l.reverse⟩

local instance contentDecidableEq : DecidableEq ByteArray := fun a b =>
  decidable_of_iff (a.data = b.data) ByteArray.ext_iff.symm

inductive Entry where
  | file (content : ByteArray) (executable : Bool)
  | directory
  /-- A program of the system, which can be run and not be made by writing. -/
  | program (name : String)
  /-- A file that swallows what is written to it and reads as empty. -/
  | sink
deriving DecidableEq

def programMark : ByteArray := "\x7fELF".toUTF8

namespace Entry

def bytes : Entry → ByteArray
  | file content _ => content
  | program name => programMark ++ name.toUTF8
  | directory | sink => .empty

def isExecutable : Entry → Bool
  | file _ executable => executable
  | program _ => true
  | directory | sink => false

def isFile : Entry → Bool
  | file _ _ | program _ => true
  | directory | sink => false

/-- The entry that a copy of a file becomes, in a file with a mode of its own. -/
def copied (source : Entry) (executable : Bool) : Entry :=
  match source with
  | program name => program name
  | source => file source.bytes executable

end Entry

/-- What stands where. The root is always a directory. -/
structure Tree where
  entries : List (Location × Entry)

namespace Tree

/-! ## Locations -/

def get? (t : Tree) (l : Location) : Option Entry :=
  if l = [] then some .directory else t.entries.lookup l

def elsewhere (l : Location) (entries : List (Location × Entry)) : List (Location × Entry) :=
  entries.filter fun e => !decide (e.1 = l)

def put (t : Tree) (l : Location) (e : Entry) : Tree :=
  ⟨(l, e) :: elsewhere l t.entries⟩

def erase (t : Tree) (l : Location) : Tree :=
  ⟨elsewhere l t.entries⟩

/-- The longest name of a file, in bytes. -/
def nameLimit : Nat := 255

def pathLimit : Nat := 4095

/-- Walks from a directory along names; each step has to start in a directory. -/
def walk (t : Tree) (start : Location) : List String → Except Fault Location
  | [] => .ok start
  | name :: rest =>
    match t.get? start with
    | none => .error .notFound
    | some .directory =>
      if name = ".." then walk t start.tail rest
      else if nameLimit < name.utf8ByteSize then .error .nameTooLong
      else walk t (name :: start) rest
    | some _ => .error .notDirectory

/-- How a path ends: in a name, or in a way that only a directory can have. -/
inductive Ending where
  | name
  /-- A slash follows the last name. -/
  | slash
  /-- The path ends in `.` or `..`, or is the root. -/
  | directory
deriving DecidableEq

def ending (p : Path) : Ending :=
  let names := (Path.splitSlashes p.text.toList).filter (· ≠ [])
  match names.getLast? with
  | none => .directory
  | some n =>
    if n = ['.'] ∨ n = ['.', '.'] then .directory
    else if p.endsInSlash then .slash
    else .name

/-- The location that a path names, seen from the directory `cwd`. Nothing need stand there. -/
def locate (t : Tree) (cwd : Location) (p : Path) : Except Fault Location :=
  if p.text.toList.contains '\x00' then .error .nulInPath
  else if p.text.isEmpty then .error .notFound
  else if pathLimit < p.text.utf8ByteSize then .error .nameTooLong
  else t.walk (if p.isAbsolute then [] else cwd) p.components

/-- What stands at a path: a path that ends like a directory has to name one. -/
def find (t : Tree) (cwd : Location) (p : Path) : Except Fault (Location × Entry) := do
  let l ← t.locate cwd p
  match t.get? l with
  | none => throw .notFound
  | some .directory => pure (l, .directory)
  | some e => if ending p = .name then pure (l, e) else throw .notDirectory

/-! ## Reading -/

def isPresent (t : Tree) (cwd : Location) (p : Path) : Bool :=
  (t.find cwd p).isOk

def isDirectory (t : Tree) (cwd : Location) (p : Path) : Bool :=
  match t.find cwd p with
  | .ok (_, .directory) => true
  | _ => false

def read (t : Tree) (cwd : Location) (p : Path) : Except Fault ByteArray := do
  match ← t.find cwd p with
  | (_, .directory) => throw .isDirectory
  | (_, e) => pure e.bytes

def readText (t : Tree) (cwd : Location) (p : Path) : Except Fault String := do
  let bytes ← t.read cwd p
  match Text.Utf8.ofBytes? bytes with
  | some s => pure s
  | none => throw .notText

/-! ## Changing -/

def removeFile (t : Tree) (cwd : Location) (p : Path) : Except Fault Tree := do
  let l ← t.locate cwd p
  match t.get? l with
  | none => throw .notFound
  | some .directory => throw .isDirectory
  | some _ => if ending p = .name then pure (t.erase l) else throw .notDirectory

/-- Opens a file to be written anew: the location of the file that is now empty, and the tree. A
new file is executable if `executable` says so; an old one keeps its mode. -/
def openNew (t : Tree) (cwd : Location) (p : Path) (executable : Bool) :
    Except Fault (Location × Tree) := do
  let l ← t.locate cwd p
  if ending p = .slash then throw .isDirectory
  match t.get? l with
  | some .directory => throw .isDirectory
  | some (.file _ x) =>
    if ending p = .name then pure (l, t.put l (.file .empty x)) else throw .notDirectory
  | some (.program _) =>
    if ending p = .name then pure (l, t.put l (.file .empty true)) else throw .notDirectory
  | some .sink => if ending p = .name then pure (l, t) else throw .notDirectory
  | none =>
    if ending p = .directory then throw .notFound
    match t.get? l.tail with
    | some .directory => pure (l, t.put l (.file .empty executable))
    | some _ => throw .notDirectory
    | none => throw .notFound

def fill (t : Tree) (l : Location) (content : ByteArray) : Tree :=
  match t.get? l with
  | some (.file _ x) => t.put l (.file content x)
  | _ => t

def write (t : Tree) (cwd : Location) (p : Path) (content : ByteArray) : Except Fault Tree := do
  let (l, t) ← t.openNew cwd p false
  pure (t.fill l content)

/-- Writes behind what a file holds, making the file if there is none. -/
def writeBehind (t : Tree) (cwd : Location) (p : Path) (content : ByteArray) :
    Except Fault Tree := do
  let l ← t.locate cwd p
  match t.get? l with
  | some (.file old x) =>
    if ending p = .name then pure (t.put l (.file (old ++ content) x)) else t.write cwd p content
  | _ => t.write cwd p content

/-- Makes a file executable or takes that away; a directory is left as it is. -/
def setExecutable (t : Tree) (cwd : Location) (p : Path) (executable : Bool) :
    Except Fault Tree := do
  match ← t.find cwd p with
  | (l, .file content _) => pure (t.put l (.file content executable))
  | _ => pure t

/-- Copies a file with its mode. The target is emptied before the source is read, so copying a file
to itself leaves it empty. -/
def copy (t : Tree) (cwd : Location) (source target : Path) : Except Fault Tree := do
  let (s, e) ← t.find cwd source
  if !e.isFile then throw .notRegular
  let (l, t) ← t.openNew cwd target e.isExecutable
  match t.get? l, t.get? s with
  | some (.file _ _), some e' => pure (t.put l (e'.copied e.isExecutable))
  | _, _ => pure t

/-- Makes one directory in an existing one. It needs a name: `.` and `..` name what is there. -/
def makeDirectory (t : Tree) (cwd : Location) (p : Path) : Except Fault Tree := do
  let l ← t.locate cwd p
  match t.get? l, ending p with
  | some .directory, _ => throw .alreadyExists
  | some _, .directory => throw .notDirectory
  | some _, _ => throw .alreadyExists
  | none, .directory => throw .notFound
  | none, _ =>
    match t.get? l.tail with
    | some .directory => pure (t.put l .directory)
    | some _ => throw .notDirectory
    | none => throw .notFound

/-- Walks along names and makes the directories that are missing, until one cannot be made. -/
def makeWay (t : Tree) (start : Location) : List String → Tree × Except Fault Unit
  | [] => (t, .ok ())
  | name :: rest =>
    if name = ".." then makeWay t start.tail rest
    else if nameLimit < name.utf8ByteSize then (t, .error .nameTooLong)
    else
      match t.get? (name :: start) with
      | none => makeWay (t.put (name :: start) .directory) (name :: start) rest
      | some .directory => makeWay t (name :: start) rest
      | some _ => (t, .error (if rest = [] then .alreadyExists else .notDirectory))

/-- Makes the directories on the way to a path and at it, name by name; what was made stays when a
later one fails. -/
def makeAll (t : Tree) (cwd : Location) (p : Path) : Tree × Except Fault Unit :=
  if p.text.isEmpty then (t, .ok ())
  else if p.text.toList.contains '\x00' then (t, .error .nulInPath)
  else if pathLimit < p.text.utf8ByteSize then (t, .error .nameTooLong)
  else t.makeWay (if p.isAbsolute then [] else cwd) p.components

def ensureDirectory (t : Tree) (cwd : Location) (p : Path) : Tree × Except Fault Unit :=
  match t.makeDirectory cwd p with
  | .ok t => (t, .ok ())
  | .error fault => (t, if t.isDirectory cwd p then .ok () else .error fault)

/-- Makes the first of a row of paths, each the parent of the one before, as a directory. The others
are made only if they turn out to be missing. -/
def makeChain (t : Tree) (cwd : Location) : List Path → Tree × Except Fault Unit
  | [] => (t, .ok ())
  | p :: parents =>
    match t.ensureDirectory cwd p with
    | (t, .error (.system 2)) =>
      match makeChain t cwd parents with
      | (t, .ok ()) => t.ensureDirectory cwd p
      | failed => failed
    | done => done

/-- Makes a directory and those of its parents that are missing. A missing directory that the path
names by `.` cannot be made, because nothing makes what that dot stands for. -/
def makeDirectories (t : Tree) (cwd : Location) (p : Path) : Tree × Except Fault Unit :=
  t.makeChain cwd (p.lineage.filter fun q => !q.text.isEmpty)

def isEmptyDirectory (t : Tree) (l : Location) : Bool :=
  !t.entries.any (·.1.tail = l)

def removeDirectory (t : Tree) (cwd : Location) (p : Path) : Except Fault Tree := do
  match ← t.find cwd p with
  | (l, .directory) =>
    if l = [] ∨ ¬t.isEmptyDirectory l then throw .notEmpty else pure (t.erase l)
  | _ => throw .notDirectory

/-- Removes what stands at a location and all below it. -/
def eraseBelow (t : Tree) (l : Location) : Tree :=
  ⟨t.entries.filter fun e => ¬l.isSuffixOf e.1⟩

def names (t : Tree) (l : Location) : List String :=
  ((t.entries.filter fun e => e.1 ≠ [] ∧ e.1.tail = l).map fun e => e.1.headD "").mergeSort (· ≤ ·)

/-- What stands below a location, with the paths that lead there from it. -/
def below (t : Tree) (l : Location) : List (String × Entry) :=
  t.entries.filterMap fun e =>
    if l.isSuffixOf e.1 ∧ l ≠ e.1 then
      some (String.intercalate "/" (e.1.take (e.1.length - l.length)).reverse, e.2)
    else none

/-! ## Laws -/

theorem lookup_elsewhere (l l' : Location) (entries : List (Location × Entry)) :
    (elsewhere l entries).lookup l' = if l' = l then none else entries.lookup l' := by
  induction entries with
  | nil => simp [elsewhere]
  | cons e rest ih =>
    obtain ⟨a, b⟩ := e
    have beq_false {x y : Location} (h : ¬x = y) : (x == y) = false := by simpa using h
    unfold elsewhere at ih ⊢
    by_cases ha : a = l
    · rw [List.filter_cons_of_neg (by simp [ha]), ih]
      by_cases h : l' = l
      · simp [h]
      · simp [List.lookup_cons, h, beq_false (ha ▸ h : ¬l' = a)]
    · rw [List.filter_cons_of_pos (by simp [ha]), List.lookup_cons, List.lookup_cons, ih]
      by_cases h : l' = l
      · simp [h, beq_false (Ne.symm ha)]
      · simp [h]

theorem get?_put (t : Tree) {l : Location} (h : l ≠ []) (e : Entry) (l' : Location) :
    (t.put l e).get? l' = if l' = l then some e else t.get? l' := by
  unfold get? put
  by_cases hr : l' = []
  · subst hr
    simp [Ne.symm h]
  · by_cases hl : l' = l
    · simp [hl, h]
    · have : (l' == l) = false := by simpa using hl
      simp only [List.lookup_cons, this, lookup_elsewhere, if_neg hr, if_neg hl]

theorem get?_erase (t : Tree) {l : Location} (h : l ≠ []) (l' : Location) :
    (t.erase l).get? l' = if l' = l then none else t.get? l' := by
  unfold get? erase
  by_cases hr : l' = []
  · subst hr
    simp [Ne.symm h]
  · simp only [if_neg hr, lookup_elsewhere]

end Tree
end CoverageMatrix.Files
