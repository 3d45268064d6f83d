import CoverageMatrix.Shell.Machine

/-!
What the shell does itself: it redirects input and output, and it has commands of its own, which can
change its state.
-/
namespace CoverageMatrix.Shell

/-! ## Redirections -/

/-- The words for a file that cannot be opened. -/
def openingFault (verb name : String) (fault : Files.Fault) : String :=
  let reason := match fault, verb with
    | .system 2, "create" => "Directory nonexistent"
    | .system 2, _ => "No such file"
    | fault, _ => Programs.faultText fault
  "cannot " ++ verb ++ " " ++ name ++ ": " ++ reason

namespace Machine

def targetOf? (m : Machine) (descriptor : Nat) : Option Target :=
  match descriptor with
  | 0 => some .closed
  | 1 => some m.toOut
  | 2 => some m.toErr
  | n => m.others.lookup n

/-- The machine with a descriptor that leads elsewhere. -/
def redirected (m : Machine) (descriptor : Nat) (target : Target) : Machine :=
  match descriptor with
  | 1 => { m with toOut := target }
  | 2 => { m with toErr := target }
  | n => { m with others := (n, target) :: m.others }

def withTargets (m before : Machine) : Machine :=
  { m with toOut := before.toOut, toErr := before.toErr, others := before.others }

/-- The machine after a redirection failed; those before it have been carried out, and `before` is
the machine without them. -/
def afterMisdirection (m before : Machine) (text : String) : Machine :=
  { (m.complain 2 (m.speaker ++ text)).withTargets before with input := before.input }

/-- Opens a file for output: the machine whose descriptor leads there, or the words for the
fault. -/
def openOutput (m : Machine) (descriptor : Nat) (append : Bool) (name : String) :
    Except String Machine :=
  let path : Path := ⟨name⟩
  let opened : Except Files.Fault (Files.Location × Files.Tree) :=
    match m.files.find m.cwd path with
    | .ok (l, .file _ _) =>
      if append then .ok (l, m.files) else m.files.openNew m.cwd path false
    | _ => m.files.openNew m.cwd path false
  match opened with
  | .ok (l, files) => .ok ({ m with files := files }.redirected descriptor (.file l))
  | .error fault => .error (openingFault "create" name fault)

def openInput (m : Machine) (name : String) : Except String Machine :=
  match m.files.read m.cwd ⟨name⟩ with
  | .ok bytes => .ok { m with input := bytes }
  | .error .isDirectory => .ok { m with input := .empty }
  | .error fault => .error (openingFault "open" name fault)

/-- Opens a file for input, and makes it if there is none. -/
def openInputNew (m : Machine) (name : String) : Except String Machine :=
  match m.files.read m.cwd ⟨name⟩ with
  | .ok bytes => .ok { m with input := bytes }
  | .error .notFound =>
    match m.files.openNew m.cwd ⟨name⟩ false with
    | .ok (_, files) => .ok { m with files := files, input := .empty }
    | .error fault => .error (openingFault "create" name fault)
  | .error fault => .error (openingFault "create" name fault)

/-- Whether a text names a descriptor, or is the dash that stands for none. -/
def isDescriptor (text : String) : Bool :=
  match text.toList with
  | [c] => c.isDigit || c = '-'
  | _ => false

/-- What a text leads to that names a descriptor, or none at all. -/
def descriptorTarget (m : Machine) (text : String) : Except String Target :=
  match text.toNat? with
  | none => .ok .closed
  | some n =>
    match m.targetOf? n with
    | some target => .ok target
    | none => .error (text ++ ": Bad file descriptor")

/-- Carries out a redirection whose target has been expanded: the machine, or the complaint. -/
def redirectOne (m : Machine) (r : Redirect) (text : String) : Except String Machine :=
  match r with
  | .input _ => m.openInput text
  | .inputNew _ => m.openInputNew text
  | .inputOf _ => do
    discard (m.descriptorTarget text)
    return if text = "-" then { m with input := .empty } else m
  | .output descriptor append _ => m.openOutput descriptor append text
  | .duplicate descriptor _ => do
    return m.redirected descriptor (← m.descriptorTarget text)
  | .document _ => .ok { m with input := Bytes.ofText text }

def redirectAll (m : Machine) : List (Redirect × String) → Except (Machine × String) Machine
  | [] => .ok m
  | (r, text) :: rest =>
    match m.redirectOne r text with
    | .ok m => m.redirectAll rest
    | .error complaint => .error (m, complaint)

/-! ## Input -/

/-- The characters of a line in which a backslash takes away the meaning of the next character, each
with whether that happened. -/
def resolved : List Char → List Mark
  | '\\' :: c :: rest => ⟨c, true⟩ :: resolved rest
  | c :: rest => ⟨c, false⟩ :: resolved rest
  | [] => []

/-- Gives the fields of a line to variables; the last one gets all that is left. -/
def assignFields (m : Machine) : List String → List Mark → Machine
  | [], _ => m
  | name :: names, cs =>
    let isSeparator (c : Mark) : Bool := !c.quoted && m.separators.contains c.char
    let isSpace (c : Mark) : Bool := isSeparator c && (c.char = ' ' || c.char = '\t')
    let cs := cs.dropWhile isSpace
    if names.isEmpty then
      m.store name (textOf (cs.reverse.dropWhile isSpace).reverse)
    else
      let rest := (cs.dropWhile (!isSeparator ·)).dropWhile isSpace
      let rest := match rest with
        | c :: after => if isSeparator c then after else rest
        | [] => []
      (m.store name (textOf (cs.takeWhile (!isSeparator ·)))).assignFields names rest

def readInto (m : Machine) (args : List String) : Machine :=
  let names := args.filter fun a => !a.startsWith "-"
  let bytes := m.input.toList
  let line := bytes.takeWhile (· ≠ Bytes.lineEnd)
  let rest := bytes.drop line.length
  let cs := Text.Utf8.decodeLenient line
  let marks := if args.contains "-r" then cs.map (⟨·, false⟩) else resolved cs
  let m := { m with input := Bytes.ofList (rest.drop 1) }
  (m.assignFields (if names.isEmpty then ["REPLY"] else names) marks).ended
    (if rest.isEmpty then 1 else 0)

/-! ## Directories and variables -/

/-- Goes to another directory, by default home; a dash stands for the directory before. -/
def changeDirectory (m : Machine) (args : List String) : Machine :=
  let asked := args.headD ((m.vars.get? "HOME").getD "")
  let name := if asked = "-" then (m.vars.get? "OLDPWD").getD "" else asked
  match m.files.find m.cwd ⟨if name.isEmpty then "." else name⟩ with
  | .ok (l, .directory) =>
    let moved := ((m.set "OLDPWD" m.cwd.path.text).set "PWD" l.path.text)
    let moved := { (moved.reveal "OLDPWD").reveal "PWD" with cwd := l, status := 0 }
    if asked = "-" then moved.emit m.toOut (Bytes.ofText (l.path.text ++ "\n")) else moved
  | _ => m.complain 2 ("cd: can't cd to " ++ name)

/-- Goes through arguments such as `NAME=value`: prepares each name, then sets its value. -/
def declare (command : String) (prepare finish : Machine → String → Machine) (m : Machine) :
    List String → Flow × Machine
  | [] => (.go, m.ended 0)
  | a :: rest =>
    let cs := a.toList
    let name := String.ofList (cs.takeWhile (· ≠ '='))
    if !isName name then (.leave, m.complain 2 (command ++ ": " ++ name ++ ": bad variable name"))
    else
      let m := prepare m name
      let m := if cs.contains '=' then
        m.store name (String.ofList ((cs.dropWhile (· ≠ '=')).drop 1)) else m
      if m.broken then (.leave, m) else declare command prepare finish (finish m name) rest

/-- Lets programs see variables. -/
def exportAll (m : Machine) (args : List String) : Flow × Machine :=
  m.declare "export" (fun m _ => m) reveal args

/-- Makes variables keep their values. -/
def fixAll (m : Machine) (args : List String) : Flow × Machine :=
  m.declare "readonly" (fun m _ => m) (fun m name => { m with fixed := name :: m.fixed }) args

/-- Makes variables those of the present function. -/
def makeLocal (m : Machine) (args : List String) : Flow × Machine :=
  if m.locals.isNone then (.leave, m.complain 2 "local: not in a function")
  else
    m.declare "local" (fun m name =>
      { m with locals := m.locals.map ((name, m.vars.get? name) :: ·) }) (fun m _ => m) args

/-- Gives the variables of a function back the values that they had outside. -/
def leaveFunction (m before : Machine) : Machine :=
  let restored := (m.locals.getD []).foldl (fun m l =>
    match l.2 with
    | some value => m.set l.1 value
    | none => m.unset l.1) m
  { restored with args := before.args, locals := before.locals, loops := before.loops }

/-- Removes variables, or functions. -/
def unsetAll (m : Machine) (args : List String) : Flow × Machine :=
  let names := args.filter fun a => !a.startsWith "-"
  if args.contains "-f" then
    (.go, { m with functions := m.functions.filter fun f => f.1 ∉ names, status := 0 })
  else
    match names.find? fun a => !isName a with
    | some a => (.leave, m.complain 2 ("unset: " ++ a ++ ": bad variable name"))
    | none =>
      match names.find? (· ∈ m.fixed) with
      | some a => (.leave, m.complain 2 ("unset: " ++ a ++ ": is read only"))
      | none => (.go, (names.foldl unset m).ended 0)

/-! ## Options -/

/-- Switches an option by its letter, if there is such a letter. -/
def switch? (m : Machine) (on : Bool) (letter : Char) : Option Machine :=
  match letter with
  | 'e' => some { m with strict := on }
  | 'u' => some { m with demanding := on }
  | 'x' => some { m with traced := on }
  | c => if c ∈ "afhmnvCbIiEV".toList then some m else none

/-- The letter of an option that is called by its name. -/
def optionLetter (name : String) : Char :=
  match name with
  | "errexit" => 'e'
  | "nounset" => 'u'
  | "xtrace" => 'x'
  | _ => 'a'

/-- Switches options by their letters: the machine, or the letter that is none. -/
def switchAll (m : Machine) (on : Bool) : List Char → Except Char Machine
  | [] => .ok m
  | c :: rest =>
    match m.switch? on c with
    | some m => m.switchAll on rest
    | none => .error c

def setOptions (m : Machine) : List String → Flow × Machine
  | [] => (.go, m.ended 0)
  | "--" :: args => (.go, { m with args := args, status := 0 })
  | a :: rest =>
    let switched (on : Bool) (letters : List Char) : Flow × Machine :=
      match m.switchAll on letters with
      | .ok m => m.setOptions rest
      | .error c =>
        (.leave, m.complain 2 ("set: Illegal option " ++ (if on then "-" else "+") ++ c.toString))
    let named (on : Bool) : Flow × Machine :=
      match rest with
      | [] => (.go, m.ended 0)
      | name :: rest => ((m.switch? on (optionLetter name)).getD m).setOptions rest
    match a.toList with
    | ['-', 'o'] => named true
    | ['+', 'o'] => named false
    | '-' :: cs => switched true cs
    | '+' :: cs => switched false cs
    | _ => (.go, { m with args := a :: rest, status := 0 })

/-! ## Control -/

/-- The status that an argument writes; the present one without an argument. -/
def statusOf (m : Machine) (args : List String) : Option Nat :=
  match args with
  | [] => some m.status
  | a :: _ => (a.toNat?).map (· % 256)

/-- Ends the script or a function with a status. -/
def leaving (m : Machine) (name : String) (args : List String) (flow : Flow) : Flow × Machine :=
  match m.statusOf args with
  | some n => (flow, m.ended n)
  | none => (.leave, m.complain 2 (name ++ ": Illegal number: " ++ args.headD ""))

/-- Leaves so many loops, or goes on with them, as far as there are any. -/
def leavingLoops (m : Machine) (name : String) (args : List String) (flow : Nat → Flow) :
    Flow × Machine :=
  match (args.head?.getD "1").toNat? with
  | none | some 0 => (.leave, m.complain 2 (name ++ ": Illegal number: " ++ args.headD ""))
  | some asked => (if m.loops = 0 then .go else flow (min asked m.loops - 1), m.ended 0)

/-- Drops so many arguments of the script. -/
def shift (m : Machine) (args : List String) : Flow × Machine :=
  match (args.head?.getD "1").toNat? with
  | none => (.leave, m.complain 2 ("shift: Illegal number: " ++ args.headD ""))
  | some n =>
    if m.args.length < n then (.leave, m.complain 2 "shift: can't shift that many")
    else (.go, { m with args := m.args.drop n, status := 0 })

/-- Says what runs at the end of the script. -/
def trap (m : Machine) (args : List String) : Machine :=
  match args with
  | action :: signals =>
    let m := if signals.any fun s => s = "EXIT" || s = "0" then
      { m with atExit := if action = "-" then none else some action } else m
    m.ended 0
  | [] => m.ended 0

def scriptCommands : List String := ["eval", ".", "exec", "command", "type"]

def stateCommands : List String :=
  [":", "trap", "wait", "umask", "ulimit", "hash", "jobs", "alias", "unalias", "kill", "times",
   "exit", "return", "break", "continue", "cd", "export", "readonly", "local", "unset", "shift",
   "set", "read"]

def isOwn (name : String) : Bool :=
  name ∈ scriptCommands || name ∈ stateCommands || (Programs.ofShell.lookup name).isSome

/-- Runs a command of the shell itself that needs no further evaluation, if it is one. -/
def builtin? (m : Machine) (name : String) (args : List String) : Option (Flow × Machine) :=
  match name with
  | "exit" => some (m.leaving "exit" args .leave)
  | "return" => some (m.leaving "return" args .back)
  | "break" => some (m.leavingLoops "break" args .stop)
  | "continue" => some (m.leavingLoops "continue" args .next)
  | "trap" => some (.go, m.trap args)
  | "cd" => some (.go, m.changeDirectory args)
  | "export" => some (m.exportAll (args.filter (· ≠ "-p")))
  | "readonly" => some (m.fixAll (args.filter (· ≠ "-p")))
  | "local" => some (m.makeLocal args)
  | "unset" => some (m.unsetAll args)
  | "shift" => some (m.shift args)
  | "set" => some (m.setOptions args)
  | "read" => some (.go, m.readInto args)
  | "umask" =>
    let m := if args.isEmpty then m.emit m.toOut (Bytes.ofText "0022\n") else m
    some (.go, m.ended 0)
  | _ =>
    if name ∈ stateCommands then some (.go, m.ended 0)
    else
      (Programs.ofShell.lookup name).map fun program =>
        (.go, m.perform program (m.opening ++ ": " ++ name) true args)

/-- Where names of programs are looked up. -/
def searchPath (m : Machine) : String :=
  (m.vars.get? "PATH").getD ""

/-- What a command is, in a few words or for use in a script. -/
def describe (m : Machine) (inWords : Bool) (name : String) : Machine :=
  let say (plain words : String) : Machine :=
    (m.emit m.toOut (Bytes.ofText ((if inWords then name ++ " is " ++ words else plain)
      ++ "\n"))).ended 0
  if (m.functions.lookup name).isSome then say name "a shell function"
  else if isOwn name then
    say name (if name ∈ specialCommands then "a special shell builtin" else "a shell builtin")
  else
    match Loader.pathOf? m.files m.cwd m.searchPath name with
    | some path => say path path
    | none =>
      let m := if inWords then m.emit m.toOut (Bytes.ofText (name ++ ": not found\n")) else m
      m.ended 127

end Machine
end CoverageMatrix.Shell
