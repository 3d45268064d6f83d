/-!
File paths as text. A path is the text that names a file; no component is looked up here. Making a
path absolute drops empty and `.` components and keeps `..`, which only a file system can resolve.

Paths are taken as UTF-8 text: those of a pipeline file and of the command line are, and a file or a
current directory whose name is not has no path here.
-/
namespace CoverageMatrix

structure Path where
  text : String
deriving DecidableEq, Inhabited

namespace Path

def isAbsolute (p : Path) : Bool :=
  p.text.toList.head? = some '/'

def endsInSlash (p : Path) : Bool :=
  p.text.toList.getLast? = some '/'

def splitSlashes : List Char → List (List Char)
  | [] => [[]]
  | c :: rest =>
    if c = '/' then [] :: splitSlashes rest
    else
      match splitSlashes rest with
      | [] => [[c]]
      | first :: more => (c :: first) :: more

/-- The names between the slashes of a path, without empty ones and `.`. -/
def components (p : Path) : List String :=
  ((splitSlashes p.text.toList).filter fun n => n ≠ [] ∧ n ≠ ['.']).map String.ofList

/-- The path without its last name; none for the empty path and the root. A `.` counts as a name
only where a relative path begins with it. -/
def parent? (p : Path) : Option Path :=
  let here := if (splitSlashes p.text.toList).head? = some ['.'] then ["."] else []
  let names := here ++ p.components
  if names.isEmpty then none
  else some ⟨(if p.isAbsolute then "/" else "") ++ String.intercalate "/" names.dropLast⟩

/-- Parents of a path in a row, up to `count` of them, the nearest first. -/
def parents : Nat → Path → List Path
  | 0, _ => []
  | count + 1, p =>
    match p.parent? with
    | some q => q :: parents count q
    | none => []

/-- A path and its parents, the nearest first. -/
def lineage (p : Path) : List Path :=
  p :: parents (p.components.length + 1) p

/-- The path `q` as seen from the directory `p`; an absolute `q` stands for itself. -/
def join (p q : Path) : Path :=
  if q.isAbsolute then q
  else if p.text.isEmpty ∨ p.endsInSlash then ⟨p.text ++ q.text⟩
  else ⟨p.text ++ "/" ++ q.text⟩

/-- The path with a text put behind it. -/
def append (p : Path) (text : String) : Path :=
  ⟨p.text ++ text⟩

/-- Where an absolute path begins: exactly two slashes are a root of their own. -/
def root (p : Path) : Path :=
  match p.text.toList with
  | '/' :: '/' :: '/' :: _ => ⟨"/"⟩
  | '/' :: '/' :: _ => ⟨"//"⟩
  | _ => ⟨"/"⟩

/-- The path seen from the current directory `cwd`. A slash at the end stays; the empty path names
no file and is left alone. -/
def absolute (p cwd : Path) : Path :=
  if p.text.isEmpty then p
  else
    let start := if p.isAbsolute then p.root else cwd
    let body := p.components.foldl (fun q n => q.join ⟨n⟩) start
    if p.endsInSlash then body.join ⟨""⟩ else body

end Path
end CoverageMatrix
