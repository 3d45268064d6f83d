import CoverageMatrix.Shell.Programs.Basic

/-!
Programs that print what their arguments say, and those that decide a condition.
-/
namespace CoverageMatrix.Shell.Programs

/-! ## Texts -/

def echo (s : Setting) : Effect :=
  let isOption (a : String) : Bool :=
    match a.toList with
    | '-' :: c :: cs => (c :: cs).all (· ∈ ['n', 'e', 'E'])
    | _ => false
  let letters := (s.args.takeWhile isOption).flatMap fun a => a.toList.drop 1
  let text := String.intercalate " " (s.args.dropWhile isOption)
  let escapes := (letters.filter (· ≠ 'n')).getLast? = some 'e'
  let (bytes, stop) :=
    if escapes then Bytes.unescape .wideArgument (text.length + 1) text.toList
    else (Text.Utf8.encode text, false)
  let bytes := if letters.contains 'n' ∨ stop then bytes else bytes ++ [Bytes.lineEnd]
  printing s (Bytes.ofList bytes)

/-- Prints its arguments as the shell's own command does: every escape counts. -/
def plainEcho (s : Setting) : Effect :=
  let (silent, args) := match s.args with
    | "-n" :: args => (true, args)
    | args => (false, args)
  let text := String.intercalate " " args
  let (bytes, stop) := Bytes.unescape .argument (text.length + 1) text.toList
  printing s (Bytes.ofList (if silent ∨ stop then bytes else bytes ++ [Bytes.lineEnd]))

/-- The complaint about an argument that is not fit for its conversion. -/
def unfitText (inShell : Bool) (argument : String) (fit : Bytes.Fit) : String :=
  let name := if inShell then argument else "'" ++ argument ++ "'"
  name ++ ": " ++ match fit with
    | .tooLarge => "Numerical result out of range"
    | .part => if inShell then "not completely converted" else "value not completely converted"
    | _ => if inShell then "expected numeric value" else "expected a numeric value"

/-- The complaint about a conversion; `cut` says that the format ends within it. -/
def invalidText (inShell : Bool) (conversion : String) (cut : Bool) : String :=
  if inShell then
    if cut then "missing format character" else conversion ++ ": invalid directive"
  else conversion ++ ": invalid conversion specification"

/-- Prints its arguments through a format. -/
def printf (s : Setting) : Effect :=
  let rules : Bytes.FormatRules :=
    if s.inShell then ⟨.format, .argument⟩ else ⟨.wideFormat, .wideArgument⟩
  match (if s.args.head? = some "--" then s.args.tail else s.args) with
  | [] =>
    if s.inShell then complaint s 2 "usage: printf format [arg ...]"
    else misuse s 1 "missing operand"
  | form :: args =>
    if s.inShell ∧ form.startsWith "-" ∧ s.args.head? = some form ∧ form.length ≠ 1 then
      complaint s 2 ("Illegal option " ++ String.ofList (form.toList.take 2))
    else
      let f := Bytes.format rules (args.length + 2) form.toList args
      let excess := if !s.inShell ∧ !f.stopped ∧ !f.rest.isEmpty then
        ["warning: ignoring excess arguments, starting with '" ++ f.rest.headD "" ++ "'"] else []
      let complaints := f.unfit.map (fun a => unfitText s.inShell a.1 a.2)
        ++ (f.invalid.map fun i => invalidText s.inShell i.1 i.2).toList
      { printing s (Bytes.ofList f.bytes) with
        status := if complaints.isEmpty then 0 else if s.inShell ∧ f.invalid.isSome then 2 else 1
        err := Bytes.ofText (String.join ((complaints ++ excess).map fun c =>
          s.called ++ ": " ++ c ++ "\n")) }

def pwd (s : Setting) : Effect :=
  printingText s (s.cwd.path.text ++ "\n")

def seq (s : Setting) : Effect :=
  match s.args.find? fun a => (Test.number? a).isNone with
  | some a => misuse s 1 ("invalid floating point argument: '" ++ a ++ "'")
  | none =>
    match s.args.filterMap Test.number? with
    | [] => misuse s 1 "missing operand"
    | numbers =>
      let (first, step, last) := match numbers with
        | [a, n] => (a, 1, n)
        | a :: b :: n :: _ => (a, b, n)
        | numbers => (1, 1, numbers.headD 0)
      let count := if step = 0 then 0 else ((last - first) / step + 1).toNat
      printingText s (String.join ((List.range count).map fun (k : Nat) =>
        toString (first + step * (k : Int)) ++ "\n"))

def printenv (s : Setting) : Effect :=
  match s.args with
  | [] => printingText s (String.join (s.env.entries.map fun e => e.1 ++ "=" ++ e.2 ++ "\n"))
  | names =>
    each s names fun s name =>
      match s.env.get? name with
      | some value => printingText s (value ++ "\n")
      | none => ending s 1

/-- Prints the last name of a path, without a given end. -/
def basename (s : Setting) : Effect :=
  match s.args with
  | [] => misuse s 1 "missing operand"
  | path :: rest =>
    let name := baseName path
    let ending := rest.headD ""
    let name := if !ending.isEmpty ∧ name ≠ ending ∧ name.endsWith ending then
      (name.dropEnd ending.length).toString else name
    printingText s (name ++ "\n")

/-- Prints paths without their last names. -/
def dirname (s : Setting) : Effect :=
  if s.args.isEmpty then misuse s 1 "missing operand"
  else each s s.args fun s path => printingText s (directoryName path ++ "\n")

/-- Ends at once, as if the time had passed. -/
def sleep (s : Setting) : Effect :=
  let isInterval (a : String) : Bool :=
    !a.isEmpty && a.toList.all fun c => c.isDigit || c = '.' || c = 's'
  match s.args, s.args.find? fun a => !isInterval a with
  | [], _ => misuse s 1 "missing operand"
  | _, some a => misuse s 1 ("invalid time interval '" ++ a ++ "'")
  | _, none => ending s 0

/-! ## Conditions -/

/-- The wording of a problem with a condition. -/
def problemText (inShell : Bool) (problem : Test.Problem) : String :=
  match inShell, problem with
  | true, .illegalNumber text => "Illegal number: " ++ text
  | true, .unexpected word _ =>
    if word.isEmpty then "unexpected operator" else word ++ ": unexpected operator"
  | true, .missing op => op ++ ": argument expected"
  | true, .unclosed => "closing paren expected"
  | false, .illegalNumber text => "invalid integer '" ++ text ++ "'"
  | false, .unexpected _ next => "extra argument '" ++ next ++ "'"
  | false, .missing op => "missing argument after '" ++ op ++ "'"
  | false, .unclosed => "')' expected"

def test (s : Setting) : Effect :=
  match Test.holds ⟨s.files, s.cwd⟩ s.args with
  | .ok t => ending s (if t then 0 else 1)
  | .error problem => complaint s 2 (problemText s.inShell problem)

/-- Tests a condition up to a closing bracket. -/
def bracket (s : Setting) : Effect :=
  if s.args.getLast? = some "]" then test { s with args := s.args.dropLast }
  else complaint s 2 (if s.inShell then "missing ]" else "missing ']'")

end CoverageMatrix.Shell.Programs
