import CoverageMatrix.Shell.Pattern
import CoverageMatrix.Shell.Token
import CoverageMatrix.Shell.Loader

/-!
The state of a running script: its variables, where its output goes, and the fields that a word
becomes once its parts are expanded.
-/
namespace CoverageMatrix.Shell

inductive Target where
  | out
  | err
  /-- Into a pipe, counted from the outermost. -/
  | pipe (level : Nat)
  | file (l : Files.Location)
  | closed

/-- How a command leaves the list it is in. -/
inductive Flow where
  | go
  | stop (loops : Nat)
  /-- On to the next round of a loop, that many loops further out. -/
  | next (loops : Nat)
  | back
  | leave

/-- The state of a running script. -/
structure Machine where
  files : Files.Tree
  cwd : Files.Location
  vars : EnvVars
  /-- The variables that programs see. -/
  exported : List String
  /-- How the script was called. -/
  name : String
  args : List String
  /-- The line of the command that runs. -/
  line : Nat := 1
  /-- The line up to which the script has been read. -/
  reached : Nat := 1
  status : Nat := 0
  functions : List (String × Command) := []
  input : ByteArray := .empty
  toOut : Target := .out
  toErr : Target := .err
  /-- Where descriptors beyond these lead. -/
  others : List (Nat × Target) := []
  out : ByteArray := .empty
  err : ByteArray := .empty
  pipes : List ByteArray := []
  /-- The status of the last command whose output a word took. -/
  outputStatus : Option Nat := none
  strict : Bool := false
  /-- Whether it ends the script to use a parameter that is not set. -/
  demanding : Bool := false
  /-- Whether commands are printed before they run. -/
  traced : Bool := false
  /-- Whether the status is being asked for, so that a failure is none. -/
  asked : Bool := false
  /-- Whether a word could not be expanded, which ends the script. -/
  broken : Bool := false
  /-- How many loops the command is in. -/
  loops : Nat := 0
  /-- The variables of a function, with the values that they had outside; nothing outside of
  functions. -/
  locals : Option (List (String × Option String)) := none
  /-- The variables that keep their values. -/
  fixed : List String := []
  atExit : Option String := none
  /-- What complaints name first: the command that runs a text as a script, if one does. -/
  speaker : String := ""

namespace Machine

/-! ## Output -/

def emit (m : Machine) (target : Target) (bytes : ByteArray) : Machine :=
  match target with
  | .out => { m with out := m.out ++ bytes }
  | .err => { m with err := m.err ++ bytes }
  | .pipe level => { m with pipes := m.pipes.modify level (· ++ bytes) }
  | .file l =>
    match m.files.get? l with
    | some (.file content x) => { m with files := m.files.put l (.file (content ++ bytes) x) }
    | _ => m
  | .closed => m

/-- What complaints begin with: the name of the script and the line. -/
def opening (m : Machine) : String :=
  m.name ++ ": " ++ toString m.line

def complain (m : Machine) (status : Nat) (text : String) : Machine :=
  { m.emit m.toErr (Bytes.ofText (m.opening ++ ": " ++ text ++ "\n")) with status := status }

/-- Complains about a word; the script ends. -/
def breakOff (m : Machine) (text : String) : Machine :=
  { m.complain 2 (m.speaker ++ text) with broken := true }

/-- Complains about a script that shows to be ill-formed; it ends. -/
def refuse (m : Machine) (flaw : Flaw) : Machine :=
  { m with line := flaw.line }.breakOff flaw.message

def ended (m : Machine) (status : Nat) : Machine :=
  { m with status := status }

/-! ## Variables -/

def separators (m : Machine) : List Char :=
  ((m.vars.get? "IFS").getD " \t\n").toList

/-- What stands between the arguments of a script when they are joined. -/
def joiner (m : Machine) : String :=
  String.ofList (m.separators.take 1)

/-- The text of a parameter, if it is set. -/
def parameter? (m : Machine) (name : String) : Option String :=
  match name with
  | "@" | "*" => if m.args.isEmpty then none else some (String.intercalate m.joiner m.args)
  | "#" => some (toString m.args.length)
  | "?" => some (toString m.status)
  | "$" => some "1"
  | "-" => some ""
  | "!" => none
  | "0" => some m.name
  | name =>
    match name.toNat? with
    | some n => m.args[n - 1]?
    | none => m.vars.get? name

def set (m : Machine) (name value : String) : Machine :=
  { m with vars := m.vars.insert name value }

/-- Sets a variable, unless it keeps its value. -/
def store (m : Machine) (name value : String) : Machine :=
  if name ∈ m.fixed then m.breakOff (name ++ ": is read only") else m.set name value

/-- Lets programs see a variable. -/
def reveal (m : Machine) (name : String) : Machine :=
  { m with exported := if name ∈ m.exported then m.exported else name :: m.exported }

def unset (m : Machine) (name : String) : Machine :=
  { m with vars := .ofList (m.vars.entries.filter (·.1 ≠ name)) }

/-- The variables that programs see. -/
def environment (m : Machine) : EnvVars :=
  .ofList (m.vars.entries.filter (·.1 ∈ m.exported))

/-- Runs a program on the machine's files and input. -/
def perform (m : Machine) (program : Programs.Program) (called : String) (inShell : Bool)
    (args : List String) : Machine :=
  let e := program ⟨called, inShell, args, m.environment, m.cwd, m.input, m.files⟩
  let m := { m with files := e.files, input := e.input, status := e.status }
  (m.emit m.toOut e.out).emit m.toErr e.err

/-- What is left of a machine after commands that ran in a shell of their own. -/
def afterOwnShell (m inner : Machine) : Machine :=
  { m with
    files := inner.files, input := inner.input, out := inner.out, err := inner.err,
    pipes := inner.pipes, status := inner.status }

end Machine

/-! ## Fields -/

/-- A piece of an expanded word. -/
inductive Fragment where
  /-- Characters, which space splits if `splits` says so. -/
  | marks (ms : List Mark) (splits : Bool)
  | border
  /-- No arguments: an empty field around this is no field. -/
  | absent

namespace Fragment

/-- Characters of a word that stands in for a parameter: space splits them unless they are
quoted. -/
def standIn : Fragment → Fragment
  | .marks (m :: ms) false => .marks (m :: ms) (!m.quoted)
  | fragment => fragment

def ofText (text : String) (quoted : Bool) : Fragment :=
  .marks (text.toList.map (⟨·, quoted⟩)) (!quoted)

/-- The arguments of a script, each a field of its own. -/
def ofArguments (args : List String) (quoted : Bool) : List Fragment :=
  if args.isEmpty then [.absent]
  else (args.map fun a => ofText a quoted).intersperse .border

/-- A field that is being put together. -/
structure Draft where
  fields : List (List Mark) := []
  current : Option (List Mark) := none
  absent : Bool := false
  /-- Whether space ended the last field, so that a separator behind it belongs to that end. -/
  spaced : Bool := false

/-- Ends the current field. -/
def Draft.flush (d : Draft) : Draft :=
  match d.current with
  | none => { d with absent := false }
  | some ms =>
    if ms.isEmpty ∧ d.absent then { fields := d.fields }
    else { fields := d.fields ++ [ms] }

/-- Adds a mark to the current field. -/
def Draft.add (d : Draft) (m : Mark) : Draft :=
  { d with current := some (d.current.getD [] ++ [m]), spaced := false }

/-- Ends the current field at a separator that is no space: it ends a field of its own if none is
open. -/
def Draft.cut (d : Draft) : Draft :=
  if d.spaced then { d with spaced := false }
  else if d.current.isSome then d.flush
  else { d with fields := d.fields ++ [[]] }

def Draft.addSplit (separators : List Char) (d : Draft) (ms : List Mark) : Draft :=
  ms.foldl (fun d m =>
    if m.char ∉ separators then d.add m
    else if m.char = ' ' ∨ m.char = '\t' ∨ m.char = '\n' then
      if d.current.isSome then { d.flush with spaced := true } else d
    else d.cut) d

def Draft.put (separators : List Char) (d : Draft) : Fragment → Draft
  | .marks ms true => d.addSplit separators ms
  | .marks ms false => { d with current := some (d.current.getD [] ++ ms), spaced := false }
  | .border => d.flush
  | .absent => { d with absent := true }

def fields (separators : List Char) (fragments : List Fragment) : List (List Mark) :=
  (fragments.foldl (Draft.put separators) {}).flush.fields

/-- The text of a word that is not split. -/
def joined (fragments : List Fragment) : List Mark :=
  fragments.flatMap fun
    | .marks ms _ => ms
    | .border => [⟨' ', true⟩]
    | .absent => []

end Fragment

def textOf (ms : List Mark) : String :=
  String.ofList (ms.map (·.char))

/-- Splits a field at its slashes. -/
def components : List Mark → List (List Mark)
  | [] => [[]]
  | m :: rest =>
    if m.char = '/' then [] :: components rest
    else
      match components rest with
      | first :: more => (m :: first) :: more
      | [] => [[m]]

/-- The names that a component adds to the path before it: those that match, if it is a pattern. -/
def step (files : Files.Tree) (cwd : Files.Location) (before : String) (component : List Mark) :
    List String :=
  if !Glob.isPattern component then [before ++ textOf component]
  else
    match files.find cwd ⟨if before.isEmpty then "." else before⟩ with
    | .ok (l, .directory) =>
      let glob := Glob.ofMarks component
      let dotted := (component.head?.map (·.char)) = some '.'
      let names := (if dotted then [".", ".."] else []) ++ files.names l
      (names.filter fun n => (dotted || !n.startsWith ".") && Glob.isMatch glob n.toList).map
        (before ++ ·)
    | _ => []

/-- The paths that components lead to from the path before them. -/
def pathsFrom (files : Files.Tree) (cwd : Files.Location) :
    List (List Mark) → String → List String
  | [], before => [before]
  | [last], before => (step files cwd before last).filter fun p => files.isPresent cwd ⟨p⟩
  | component :: rest, before =>
    (step files cwd before component).flatMap fun p => pathsFrom files cwd rest (p ++ "/")

/-- The paths that a field stands for: those that match, if it is a pattern and some do. -/
def pathsOf (files : Files.Tree) (cwd : Files.Location) (ms : List Mark) : List String :=
  if !Glob.isPattern ms then [textOf ms]
  else
    let hits := pathsFrom files cwd (components ms) ""
    if hits.isEmpty then [textOf ms] else hits

/-- The length of the piece that a pattern removes from one end of a text. -/
def trimLength (trim : Trim) (glob : List Glob) (cs : List Char) : Nat :=
  let cut (n : Nat) : List Char := if trim.fromEnd then cs.drop (cs.length - n) else cs.take n
  let hits := (List.range (cs.length + 1)).filter fun n => Glob.isMatch glob (cut n)
  if trim.longest then hits.getLastD 0 else hits.headD 0

/-- A text without the piece that a pattern removes. -/
def trimmed (trim : Trim) (pattern : List Mark) (text : String) : String :=
  let cs := text.toList
  let n := trimLength trim (Glob.ofMarks pattern) cs
  String.ofList (if trim.fromEnd then cs.take (cs.length - n) else cs.drop n)

end CoverageMatrix.Shell
