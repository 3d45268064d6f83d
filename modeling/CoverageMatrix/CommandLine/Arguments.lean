import CoverageMatrix.EnvVars
import CoverageMatrix.Path

/-!
The arguments of the command line. Options may stand in any order after the command that they belong
to; an option that is unknown, repeated or without a fit value is a usage error.
-/
namespace CoverageMatrix.CommandLine

/-! ## Scanning -/

/-- Why arguments are not acted upon. -/
inductive Refusal where
  /-- The arguments are not used as they are meant to be. -/
  | usage (text : String)
  | version
  | help

structure OptionSpec where
  /-- The name after two dashes. -/
  long : String
  /-- The letter after one dash. -/
  short : Option Char := none
  valued : Bool := false
  /-- Whether a value is fit for the option. -/
  accepts : String → Bool := fun _ => true
  /-- Whether the option may be given more than once. -/
  repeats : Bool := false

structure Scan where
  /-- The options that were given, with their values, in order. -/
  options : List (String × String) := []
  operands : List String := []

namespace Scan

def values (s : Scan) (long : String) : List String :=
  (s.options.filter (·.1 = long)).map (·.2)

def value? (s : Scan) (long : String) : Option String :=
  (s.values long).head?

def has (s : Scan) (long : String) : Bool :=
  s.options.any (·.1 = long)

def add (s : Scan) (spec : OptionSpec) (value : String) : Except Refusal Scan :=
  if spec.long = "version" then .error .version
  else if spec.long = "help" then .error .help
  else if s.has spec.long ∧ ¬spec.repeats then
    .error (.usage ("the argument '--" ++ spec.long ++ "' cannot be used multiple times"))
  else if spec.valued ∧ ¬spec.accepts value then
    .error (.usage ("invalid value '" ++ value ++ "' for '--" ++ spec.long ++ "'"))
  else .ok { s with options := s.options ++ [(spec.long, value)] }

end Scan

/-- The refusal of an argument that no option fits. -/
def unexpected (argument : String) : Refusal :=
  .usage ("unexpected argument '" ++ argument ++ "' found")

def missingValue (spec : OptionSpec) : Refusal :=
  .usage ("a value is required for '--" ++ spec.long ++ "' but none was supplied")

/-- Whether an argument can be the value of an option before it. -/
def isValue (argument : String) : Bool :=
  argument = "-" || !argument.startsWith "-"

/-- An option that still waits for its value, if any. -/
abbrev Waiting := Option OptionSpec

/-- Reads the letters of an argument with one dash. -/
def scanLetters (specs : List OptionSpec) (argument : String) (s : Scan) :
    List Char → Except Refusal (Scan × Waiting)
  | [] => .ok (s, none)
  | c :: rest =>
    match specs.find? (·.short = some c) with
    | none => .error (unexpected argument)
    | some spec =>
      if spec.valued then
        match rest with
        | [] => .ok (s, some spec)
        | '=' :: value => (s.add spec (String.ofList value)).map (·, none)
        | value => (s.add spec (String.ofList value)).map (·, none)
      else
        match s.add spec "" with
        | .error e => .error e
        | .ok s => scanLetters specs argument s rest

/-- Reads an argument with two dashes. -/
def scanLong (specs : List OptionSpec) (argument : String) (s : Scan) :
    Except Refusal (Scan × Waiting) :=
  let cs := argument.toList.drop 2
  let name := String.ofList (cs.takeWhile (· ≠ '='))
  let attached := cs.contains '='
  match specs.find? (·.long = name) with
  | none => .error (unexpected argument)
  | some spec =>
    if spec.valued then
      if attached then (s.add spec (String.ofList ((cs.dropWhile (· ≠ '=')).drop 1))).map (·, none)
      else .ok (s, some spec)
    else if attached then .error (unexpected argument)
    else (s.add spec "").map (·, none)

/-- Reads arguments. Up to `limit` operands are taken; with `stops`, the first operand ends the
scan, and what follows it is given back. -/
def scan (specs : List OptionSpec) (stops : Bool) (limit : Nat) :
    Scan → Waiting → List String → Except Refusal (Scan × List String)
  | s, none, [] => .ok (s, [])
  | _, some spec, [] => .error (missingValue spec)
  | s, some spec, a :: rest =>
    if isValue a then
      match s.add spec a with
      | .error e => .error e
      | .ok s => scan specs stops limit s none rest
    else .error (missingValue spec)
  | s, none, a :: rest =>
    if a = "--" then
      if stops then .error (unexpected (rest.headD ""))
      else if s.operands.length + rest.length ≤ limit then
        .ok ({ s with operands := s.operands ++ rest }, [])
      else .error (unexpected (rest.headD ""))
    else if isValue a then
      if limit ≤ s.operands.length then .error (unexpected a)
      else if stops then .ok ({ s with operands := [a] }, rest)
      else scan specs stops limit { s with operands := s.operands ++ [a] } none rest
    else
      match (if a.startsWith "--" then scanLong specs a s
        else scanLetters specs a s (a.toList.drop 1)) with
      | .error e => .error e
      | .ok (s, waiting) => scan specs stops limit s waiting rest

/-! ## Commands -/

/-- The pipeline file that is used if none is named. -/
def defaultFile : String := "covpipe.toml"

/-- The variable that holds the identifier if no option gives one. -/
def idVariable : String := "CC_TEST_REPORTER_ID"

structure RunOptions where
  config : Path
  /-- The identifier of the option, or else of the variable. -/
  reporterId : Option String
  noReport : Bool
  summary : Option Path
  parallel : Option Nat
  versions : List String

structure PlanOptions where
  config : Path
  noReport : Bool
  versions : List String

inductive Request where
  | run (options : RunOptions)
  | plan (options : PlanOptions)
  | init (directory : Path) (force : Bool)

/-- The largest number that an option takes. -/
def numberLimit : Nat := 18446744073709551615

/-- The number that a value writes; a plus sign may stand in front. -/
def number? (text : String) : Option Nat :=
  let ds := match text.toList with
    | '+' :: ds => ds
    | ds => ds
  if !ds.isEmpty ∧ ds.all Char.isDigit then
    let n := ds.foldl (fun n d => n * 10 + (d.toNat - 48)) 0
    if n ≤ numberLimit then some n else none
  else none

def commonOptions : List OptionSpec :=
  [{ long := "verbose", short := some 'v' }, { long := "json-logs" },
   { long := "help", short := some 'h' }]

/-- The option that names the pipeline file. -/
def configOption : OptionSpec :=
  { long := "config", short := some 'c', valued := true, accepts := fun v => !v.isEmpty }

def versionsOption : OptionSpec :=
  { long := "versions", valued := true, repeats := true }

def runOptions : List OptionSpec :=
  [configOption, { long := "reporter-id", valued := true }, { long := "no-report" },
   { long := "summary", valued := true, accepts := fun v => !v.isEmpty },
   { long := "parallel", valued := true, accepts := fun v => (number? v).isSome },
   versionsOption] ++ commonOptions

def planOptions : List OptionSpec :=
  [configOption, { long := "no-report" }, versionsOption] ++ commonOptions

/-- The options of the command that writes a pipeline file. -/
def initOptions : List OptionSpec :=
  { long := "force" } :: commonOptions

/-- The versions that options choose, with commas between them. -/
def versionsOf (s : Scan) : List String :=
  (s.values "versions").flatMap (·.splitOn ",")

/-- The pipeline file that options name. -/
def configOf (s : Scan) : Path :=
  ⟨(s.value? "config").getD defaultFile⟩

def runRequest (env : EnvVars) (args : List String) : Except Refusal Request := do
  let (s, _) ← scan runOptions false 0 {} none args
  return .run {
    config := configOf s
    reporterId := (s.value? "reporter-id").or (env.get? idVariable)
    noReport := s.has "no-report"
    summary := (s.value? "summary").map Path.mk
    parallel := (s.value? "parallel").bind number?
    versions := versionsOf s }

def planRequest (args : List String) : Except Refusal Request := do
  let (s, _) ← scan planOptions false 0 {} none args
  return .plan {
    config := configOf s, noReport := s.has "no-report", versions := versionsOf s }

/-- Reads the arguments of the command that writes a pipeline file. -/
def initRequest (args : List String) : Except Refusal Request := do
  let (s, _) ← scan initOptions false 1 {} none args
  let directory := s.operands.headD "."
  if directory.isEmpty then throw (.usage "a value is required for '[PATH]' but none was supplied")
  return .init ⟨directory⟩ (s.has "force")

def request (env : EnvVars) (args : List String) : Except Refusal Request := do
  let specs := { long := "version", short := some 'V' } :: commonOptions
  let (s, rest) ← scan specs true 1 {} none args
  match s.operands with
  | ["run"] => runRequest env rest
  | ["plan"] => planRequest rest
  | ["init"] => initRequest rest
  | ["help"] => throw .help
  | [name] => throw (.usage ("unrecognized subcommand '" ++ name ++ "'"))
  | _ => throw (.usage "a subcommand is required")

end CoverageMatrix.CommandLine
