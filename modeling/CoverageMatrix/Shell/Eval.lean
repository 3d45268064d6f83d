import CoverageMatrix.Shell.Builtin
import CoverageMatrix.Shell.Reader

/-!
Running scripts. A command changes the machine and says how to go on. Every step uses up fuel; a
script that runs out of it is left.
-/
namespace CoverageMatrix.Shell

/-- What a loop makes of how its body was left. -/
def Flow.afterRound : Flow → Flow × Bool
  | .go | .next 0 => (.go, true)
  | .stop 0 => (.go, false)
  | .stop (n + 1) => (.stop n, false)
  | .next (n + 1) => (.next n, false)
  | flow => (flow, false)

/-- What a function makes of how its body was left. -/
def Flow.afterFunction : Flow → Flow
  | .back => .go
  | flow => flow

namespace Machine

/-- How to go on after a command that may fail: a failure ends a strict script, unless the status is
being asked for. -/
def checked (m : Machine) : Flow → Flow × Machine
  | .go => (if m.strict ∧ ¬m.asked ∧ m.status ≠ 0 then .leave else .go, m)
  | flow => (flow, m)

/-- The text of a parameter that is to be set, or else breaks off a demanding script. -/
def demand (m : Machine) (name : String) : String × Machine :=
  match m.parameter? name with
  | some value => (value, m)
  | none =>
    if m.demanding ∧ name ∉ ["@", "*"] then ("", m.breakOff (name ++ ": parameter not set"))
    else ("", m)

/-- Prints a command before it runs, if commands are traced. -/
def trace (m : Machine) (assigned argv : List String) : Machine :=
  if m.traced then
    let sets := assigned.map fun name => name ++ "=" ++ (m.vars.get? name).getD ""
    m.emit m.toErr (Bytes.ofText ("+ " ++ String.intercalate " " (sets ++ argv) ++ "\n"))
  else m

end Machine

/-! ## Evaluation -/

mutual
def expandPart : Nat → Part → Machine → List Fragment × Machine
  | 0, _, m => ([], m)
  | fuel + 1, part, m =>
    match part with
    | .text cs quoted => ([.marks (cs.map (⟨·, quoted⟩)) false], m)
    | .parameter "@" quoted => (Fragment.ofArguments m.args quoted, m)
    | .parameter "*" false => (Fragment.ofArguments m.args false, m)
    | .parameter name quoted =>
      let (value, m) := m.demand name
      ([.ofText value quoted], m)
    | .size name =>
      let (value, m) := m.demand name
      ([.ofText (toString value.length) true], m)
    | .guarded name fallback orEmpty word quoted =>
      let value := (m.parameter? name).filter fun v => !(orEmpty && v.isEmpty)
      let instead (m : Machine) : List Fragment × Machine :=
        let (fs, m) := expandWord fuel word m
        (if quoted then fs else fs.map Fragment.standIn, m)
      match fallback, value with
      | .alternative, some _ => instead m
      | .alternative, none => ([.ofText "" quoted], m)
      | _, some v => ([.ofText v quoted], m)
      | .useWord, none => instead m
      | .assign, none =>
        let (fs, m) := expandWord fuel word m
        let text := textOf (Fragment.joined fs)
        ([.ofText text quoted], m.store name text)
      | .failure, none =>
        let (fs, m) := expandWord fuel word m
        let text := textOf (Fragment.joined fs)
        let reason := if !word.isEmpty then text
          else "parameter not set" ++ if orEmpty then " or null" else ""
        ([], m.breakOff (name ++ ": " ++ reason))
    | .trimmed name trim pattern quoted =>
      let (fs, m) := expandWord fuel pattern m
      let (value, m) := m.demand name
      ([.ofText (trimmed trim (Fragment.joined fs) value) quoted], m)
    | .output command quoted =>
      let level := m.pipes.length
      let inner :=
        evalOwn fuel command { m with pipes := m.pipes ++ [.empty], toOut := .pipe level }
      let bytes := (inner.pipes[level]?).getD .empty
      let cs := (Text.Utf8.decodeLenient bytes.toList).reverse.dropWhile (· = '\n')
      let status := m.status
      let m := m.afterOwnShell { inner with pipes := inner.pipes.take level }
      let m := { m with outputStatus := some m.status, status := status }
      ([.ofText (String.ofList (cs.reverse.filter (· ≠ '\x00'))) quoted], m)
    | .arithmetic expression quoted =>
      let (fs, m) := expandWord fuel expression m
      let text := textOf (Fragment.joined fs)
      match Arithmetic.evaluate m.parameter? text.toList with
      | .ok (n, sets) =>
        ([.ofText (toString n) quoted], sets.foldl (fun m v => m.store v.1 (toString v.2)) m)
      | .error problem => ([], m.breakOff (problem.message text))
    | .illFormed => ([], m.breakOff "Bad substitution")

/-- Expands a word. After a part that cannot be expanded nothing is expanded. -/
def expandWord : Nat → Word → Machine → List Fragment × Machine
  | 0, _, m => ([], m)
  | _ + 1, [], m => ([], m)
  | fuel + 1, part :: rest, m =>
    let (fs, m) := expandPart fuel part m
    if m.broken then (fs, m)
    else
      let (more, m) := expandWord fuel rest m
      (fs ++ more, m)

def expandFields : Nat → List Word → Machine → List String × Machine
  | 0, _, m => ([], m)
  | _ + 1, [], m => ([], m)
  | fuel + 1, word :: rest, m =>
    let (fs, m) := expandWord fuel word m
    if m.broken then ([], m)
    else
      let own := (Fragment.fields m.separators fs).flatMap (pathsOf m.files m.cwd)
      let (more, m) := expandFields fuel rest m
      (own ++ more, m)

def expandText : Nat → Word → Machine → String × Machine
  | 0, _, m => ("", m)
  | fuel + 1, word, m =>
    let (fs, m) := expandWord fuel word m
    (textOf (Fragment.joined fs), m)

/-- Carries out assignments; `reveals` lets programs see the variables. -/
def assign : Nat → Bool → List (String × Word) → Machine → Machine
  | 0, _, _, m => m
  | _ + 1, _, [], m => m
  | fuel + 1, reveals, (name, word) :: rest, m =>
    let (value, m) := expandText fuel word m
    let m := if m.broken then m else m.store name value
    if m.broken then m else assign fuel reveals rest (if reveals then m.reveal name else m)

def expandTargets : Nat → List Redirect → Machine → List (Redirect × String) × Machine
  | 0, _, m => ([], m)
  | _ + 1, [], m => ([], m)
  | fuel + 1, r :: rest, m =>
    let (text, m) := expandText fuel r.target m
    let m := if m.broken ∨ ¬r.isOfDescriptor ∨ Machine.isDescriptor text then m
      else m.refuse ⟨m.reached, .descriptor⟩
    if m.broken then ([], m)
    else
      let (more, m) := expandTargets fuel rest m
      ((r, text) :: more, m)

/-- Carries out redirections: the machine, or the complaint about the one that failed. -/
def redirect : Nat → List Redirect → Machine → Except (Machine × String) Machine
  | 0, _, m => .error (m, "out of fuel")
  | fuel + 1, rs, m =>
    let (targets, m) := expandTargets fuel rs m
    if m.broken then .ok m else m.redirectAll targets

/-- Runs a program that was found. -/
def start : Nat → Loader.Loaded → Machine → Machine
  | 0, _, m => m.ended 127
  | fuel + 1, l, m =>
    let called := l.argv.headD l.program
    match Programs.byName.lookup l.program with
    | some program => m.perform program called false l.argv.tail
    | none =>
      if l.program = "env" then m.afterOwnShell (withEnvironment fuel called l.argv.tail m)
      else m.afterOwnShell (shell fuel l.argv m)

/-- Changes variables as arguments say, then runs the program that they name or prints the
variables. -/
def withEnvironment : Nat → String → List String → Machine → Machine
  | 0, _, _, m => m.ended 127
  | fuel + 1, called, args, m =>
    match args with
    | [] => m.perform Programs.printenv called false []
    | "-i" :: rest | "-" :: rest => withEnvironment fuel called rest { m with vars := .empty }
    | "-u" :: name :: rest => withEnvironment fuel called rest (m.unset name)
    | a :: rest =>
      let cs := a.toList
      if cs.contains '=' then
        let name := String.ofList (cs.takeWhile (· ≠ '='))
        let value := String.ofList ((cs.dropWhile (· ≠ '=')).drop 1)
        withEnvironment fuel called rest ((m.set name value).reveal name)
      else
        let path := (m.vars.get? "PATH").getD Loader.defaultPath
        match Loader.find m.files m.cwd path args with
        | .ok e => start fuel e.throughShell m
        | .error fault =>
          let text := called ++ ": '" ++ a ++ "': " ++ Programs.faultText fault ++ "\n"
          (m.emit m.toErr (Bytes.ofText text)).ended (if fault = .notFound then 127 else 126)

/-- Finds a program and runs it, maybe in the place of the shell. -/
def execute : Nat → Bool → List String → Machine → Machine
  | 0, _, _, m => m.ended 127
  | fuel + 1, inPlace, argv, m =>
    let name := argv.headD ""
    let opening := if inPlace then "exec: " else m.speaker
    match Loader.lookUp m.files m.cwd m.searchPath argv with
    | .ok (.plain _ _ false) => m.complain 126 (opening ++ name ++ ": Exec format error")
    | .ok e => start fuel e.throughShell m
    | .error (.system 13) =>
      let status := if inPlace ∨ name.toList.contains '/' then 126 else 127
      m.complain status (opening ++ name ++ ": Permission denied")
    | .error _ => m.complain 127 (opening ++ name ++ ": not found")

/-- Runs a shell of its own with arguments. It takes over the variables whose names it can use. -/
def shell : Nat → List String → Machine → Machine
  | 0, _, m => m.ended 127
  | fuel + 1, argv, m =>
    let fresh : Machine :=
      { files := m.files, cwd := m.cwd,
        vars := .ofList (m.environment.entries.filter fun e => isName e.1),
        exported := m.exported,
        name := argv.headD "sh", args := [], input := m.input, toOut := m.toOut, toErr := m.toErr,
        others := m.others, out := m.out, err := m.err, pipes := m.pipes }
    let fresh := (fresh.set "PWD" m.cwd.path.text).reveal "PWD"
    let fresh := if (fresh.vars.get? "PATH").isSome then fresh
      else fresh.set "PATH" Loader.shellPath
    shellWith fuel argv.tail fresh

/-- Runs a shell by its arguments: options, then a script as text, as a file or as input. -/
def shellWith : Nat → List String → Machine → Machine
  | 0, _, m => m.ended 127
  | fuel + 1, args, m =>
    match args with
    | [] =>
      let text := String.ofList (Text.Utf8.decodeLenient m.input.toList)
      runText fuel text { m with input := .empty }
    | "-c" :: rest =>
      match rest with
      | [] => { m with line := 0 }.complain 2 "-c requires an argument"
      | text :: rest =>
        let m := match rest with
          | [] => m
          | name :: args => { m with name := name, args := args }
        runText fuel text m
    | a :: rest =>
      match a.toList with
      | '-' :: cs =>
        match m.switchAll true (cs.filter fun c => c ≠ 'c' ∧ c ≠ 's') with
        | .ok m =>
          if cs.contains 'c' then shellWith fuel ("-c" :: rest) m else shellWith fuel rest m
        | .error c => { m with line := 0 }.complain 2 ("Illegal option -" ++ c.toString)
      | _ =>
        match m.files.read m.cwd ⟨a⟩ with
        | .ok bytes =>
          let text := String.ofList (Text.Utf8.decodeLenient bytes.toList)
          runText fuel text { m with name := a, args := rest }
        | .error fault => { m with line := 0 }.complain 2 (openingFault "open" a fault)

/-- Runs the lines of a script, of which so many line breaks are all there are. -/
def runLines : Nat → Nat → List Char → Machine → Flow × Machine
  | 0, _, _, m => (.leave, m.ended 127)
  | fuel + 1, breaks, cs, m =>
    if cs.isEmpty then (.go, m)
    else
      match Reader.nextLine breaks cs with
      | .error flaw => (.leave, m.refuse flaw)
      | .ok (c, rest) =>
        match eval fuel c { m with reached := Reader.lineOf breaks rest } with
        | (.go, m) => runLines fuel breaks rest m
        | r => r

/-- Runs a text as a script, and what it leaves for its end. -/
def runText : Nat → String → Machine → Machine
  | 0, _, m => m.ended 127
  | fuel + 1, text, m =>
    let cs := text.toList
    finish fuel (runLines fuel (cs.count '\n') cs m).2

/-- Runs a text as a part of the script, for a command that complaints name. A text without commands
succeeds. -/
def runWithin : Nat → String → String → Machine → Flow × Machine
  | 0, _, _, m => (.leave, m.ended 127)
  | fuel + 1, speaker, text, m =>
    let cs := text.toList
    if (Reader.skipLines false cs).isEmpty then (.go, m.ended 0)
    else
      let (flow, after) := runLines fuel (cs.count '\n') cs { m with speaker := speaker }
      (flow, { after with speaker := m.speaker, reached := m.reached })

/-- Runs what a script leaves for its end; the status stays, unless that says otherwise. -/
def finish : Nat → Machine → Machine
  | 0, m => m
  | fuel + 1, m =>
    match m.atExit with
    | none => m
    | some text =>
      let cs := text.toList
      let m := { m with atExit := none, broken := false, speaker := "" }
      match runLines fuel (cs.count '\n') cs m with
      | (.leave, after) => after
      | (_, after) => after.ended m.status

def evalOwn : Nat → Command → Machine → Machine
  | 0, _, m => m.ended 127
  | fuel + 1, c, m => finish fuel (eval fuel c { m with atExit := none }).2

/-- Runs a command that has been expanded. -/
def call : Nat → List String → Machine → Flow × Machine
  | 0, _, m => (.leave, m.ended 127)
  | fuel + 1, argv, m =>
    let name := argv.headD ""
    let args := argv.tail
    match m.functions.lookup name with
    | some body =>
      let (flow, inner) := eval fuel body { m with args := args, locals := some [], loops := 0 }
      (flow.afterFunction, inner.leaveFunction m)
    | none =>
      match name with
      | "eval" => runWithin fuel "eval: " (String.intercalate " " args) m
      | "." =>
        match args with
        | [] => (.go, m.ended 0)
        | asked :: _ =>
          match Loader.scriptPath? m.files m.cwd m.searchPath asked with
          | none => (.leave, m.complain 2 (".: " ++ asked ++ ": not found"))
          | some path =>
            match m.openInput path with
            | .ok opened =>
              let text := String.ofList (Text.Utf8.decodeLenient opened.input.toList)
              let (flow, m) := runWithin fuel (path ++ ": ") text m
              (flow.afterFunction, m)
            | .error reason => (.leave, m.complain 2 (".: " ++ reason))
      | "exec" => if args.isEmpty then (.go, m.ended 0) else (.leave, execute fuel true args m)
      | "type" => (.go, args.foldl (fun m name => m.describe true name) (m.ended 0))
      | "command" =>
        match args with
        | "-v" :: program :: _ => (.go, m.describe false program)
        | "-V" :: program :: _ => (.go, m.describe true program)
        | [] => (.go, m.ended 0)
        | args =>
          let (flow, after) := call fuel args { m with functions := [] }
          (flow, { after with functions := m.functions })
      | _ =>
        match m.builtin? name args with
        | some r => r
        | none => (.go, execute fuel false argv m)

def eval : Nat → Command → Machine → Flow × Machine
  | 0, _, m => (.leave, m.ended 127)
  | fuel + 1, command, m =>
    match command with
    | .nothing => (.go, m)
    | .simple line assignments words redirects =>
      simple fuel assignments words redirects { m with line := line }
    | .sequence a b =>
      match eval fuel a m with
      | (.go, m) => eval fuel b m
      | r => r
    | .both a b =>
      match asking fuel a m with
      | (.go, m) => if m.status = 0 then eval fuel b m else (.go, m)
      | r => r
    | .either a b =>
      match asking fuel a m with
      | (.go, m) => if m.status = 0 then (.go, m) else eval fuel b m
      | r => r
    | .negate a =>
      match asking fuel a m with
      | (.go, m) => (.go, m.ended (if m.status = 0 then 1 else 0))
      | r => r
    | .pipe a b =>
      let level := m.pipes.length
      let first := evalOwn fuel a { m with pipes := m.pipes ++ [.empty], toOut := .pipe level }
      let bytes := (first.pipes[level]?).getD .empty
      let m := m.afterOwnShell { first with pipes := first.pipes.take level, status := m.status }
      let second := evalOwn fuel b { m with input := bytes }
      { m.afterOwnShell second with input := m.input }.checked .go
    | .background a =>
      let after := m.afterOwnShell (evalOwn fuel a { m with input := .empty })
      (.go, { after with input := m.input, status := 0 })
    | .branch c t e =>
      match asking fuel c m with
      | (.go, m) =>
        if m.status = 0 then eval fuel t m
        else
          match e with
          | .nothing => (.go, m.ended 0)
          | e => eval fuel e m
      | r => r
    | .loop untilTrue c body =>
      let (flow, after) := rounds fuel untilTrue c body 0 { m with loops := m.loops + 1 }
      (flow, { after with loops := m.loops })
    | .forEach name words body =>
      let (fields, m) := match words with
        | some words => expandFields fuel words m
        | none => (m.args, m)
      if m.broken then (.leave, m)
      else
        let inner := { m with loops := m.loops + 1, status := 0 }
        let (flow, after) := eachField fuel name fields body inner
        (flow, { after with loops := m.loops })
    | .choose word cases =>
      let (text, m) := expandText fuel word m
      if m.broken then (.leave, m) else pick fuel text.toList cases (m.ended 0)
    | .group ownShell body redirects =>
      match redirect fuel redirects m with
      | .error (inner, text) => (inner.afterMisdirection m text).checked .go
      | .ok inner =>
        if inner.broken then (.leave, inner)
        else if ownShell then
          let inner := evalOwn fuel body inner
          let input := if redirects.any Redirect.isInput then m.input else inner.input
          { m.afterOwnShell inner with input := input }.checked .go
        else
          let (flow, inner) := eval fuel body inner
          if redirects.isEmpty then (flow, inner)
          else
            let input := if redirects.any Redirect.isInput then m.input else inner.input
            (flow, { inner.withTargets m with input := input })
    | .function name body => (.go, { m with functions := (name, body) :: m.functions, status := 0 })

/-- Runs a command whose status is asked for. -/
def asking : Nat → Command → Machine → Flow × Machine
  | 0, _, m => (.leave, m.ended 127)
  | fuel + 1, c, m =>
    let (flow, inner) := eval fuel c { m with asked := true }
    (flow, { inner with asked := m.asked })

def simple : Nat → List (String × Word) → List Word → List Redirect → Machine → Flow × Machine
  | 0, _, _, _, m => (.leave, m.ended 127)
  | fuel + 1, assignments, words, redirects, m =>
    let (argv, m) := expandFields fuel words { m with outputStatus := none }
    let name := argv.headD ""
    let special := name ∈ specialCommands && (m.functions.lookup name).isNone
    let names := assignments.map (·.1)
    if m.broken then (.leave, m)
    else
      match redirect fuel redirects m with
      | .error (inner, text) =>
        let m := inner.afterMisdirection m text
        if special then (.leave, m) else m.checked .go
      | .ok inner =>
        let inner := if inner.broken then inner
          else assign fuel (!argv.isEmpty) assignments inner
        if inner.broken then (.leave, inner.withTargets m)
        else
          let trace := fun (inner : Machine) =>
            { (inner.withTargets m).trace names argv with
              toOut := inner.toOut, toErr := inner.toErr, others := inner.others }
          let inner := if argv.isEmpty ∧ assignments.isEmpty then inner else trace inner
          let restore (flow : Flow) (after : Machine) : Flow × Machine :=
            let input := if redirects.any Redirect.isInput then m.input else after.input
            { after.withTargets m with input := input }.checked flow
          if argv.isEmpty then restore .go (inner.ended (inner.outputStatus.getD 0))
          else if name = "exec" ∧ argv.length = 1 then (.go, inner.ended 0)
          else
            let (flow, after) := call fuel argv inner
            let after := if special ∨ assignments.isEmpty then after
              else { after with vars := names.foldl (fun vars name =>
                  match m.vars.get? name with
                  | some value => vars.insert name value
                  | none => .ofList (vars.entries.filter (·.1 ≠ name))) after.vars
                                exported := m.exported }
            restore (if after.broken then .leave else flow) after

/-- Runs the rounds of a loop; `last` is the status of the round before. -/
def rounds : Nat → Bool → Command → Command → Nat → Machine → Flow × Machine
  | 0, _, _, _, _, m => (.leave, m.ended 127)
  | fuel + 1, untilTrue, c, body, last, m =>
    match asking fuel c m with
    | (.go, m) =>
      if (m.status = 0) = untilTrue then (.go, m.ended last)
      else
        let (flow, m) := eval fuel body m
        match flow.afterRound with
        | (_, true) => rounds fuel untilTrue c body m.status m
        | (flow, false) => (flow, m)
    | (flow, m) =>
      match flow.afterRound with
      | (_, true) => rounds fuel untilTrue c body m.status m
      | (flow, false) => (flow, m)

/-- Runs a body for each of some values. -/
def eachField : Nat → String → List String → Command → Machine → Flow × Machine
  | 0, _, _, _, m => (.leave, m.ended 127)
  | _ + 1, _, [], _, m => (.go, m)
  | fuel + 1, name, value :: rest, body, m =>
    let (flow, m) := eval fuel body (m.set name value)
    match flow.afterRound with
    | (_, true) => eachField fuel name rest body m
    | (flow, false) => (flow, m)

/-- Runs the first case whose pattern matches. -/
def pick : Nat → List Char → List (List Word × Command) → Machine → Flow × Machine
  | 0, _, _, m => (.leave, m.ended 127)
  | _ + 1, _, [], m => (.go, m)
  | fuel + 1, text, (patterns, body) :: rest, m =>
    let (hit, m) := matchesAny fuel text patterns m
    if hit then eval fuel body m else pick fuel text rest m

/-- Whether one of some patterns matches a text. -/
def matchesAny : Nat → List Char → List Word → Machine → Bool × Machine
  | 0, _, _, m => (false, m)
  | _ + 1, _, [], m => (false, m)
  | fuel + 1, text, word :: rest, m =>
    let (fs, m) := expandWord fuel word m
    if Glob.isMatch (Glob.ofMarks (Fragment.joined fs)) text then (true, m)
    else matchesAny fuel text rest m
end

/-- How many steps deep a script may go. -/
def depthLimit : Nat := 1000000

end CoverageMatrix.Shell
