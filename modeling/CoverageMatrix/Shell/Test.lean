import CoverageMatrix.Files.Tree

/-!
Conditions of the shell: what `test` and `[` say about texts, numbers and files. A condition is read
from left to right while it is decided; each reader gives the words from the last one that it used
on.
-/
namespace CoverageMatrix.Shell.Test

structure Place where
  files : Files.Tree
  cwd : Files.Location

/-! ## Operands -/

/-- The number that decimal digits write. -/
def natural? (ds : List Char) : Option Nat :=
  if !ds.isEmpty ∧ ds.all Char.isDigit then
    some (ds.foldl (fun n d => n * 10 + (d.toNat - 48)) 0)
  else none

/-- The whole number that an operand writes. -/
def number? (text : String) : Option Int :=
  match text.trimAscii.toString.toList with
  | '-' :: ds => (natural? ds).map fun n => -(n : Int)
  | '+' :: ds => (natural? ds).map Int.ofNat
  | ds => (natural? ds).map Int.ofNat

/-- The whole number of 64 bits that an operand writes. -/
def integer? (text : String) : Option Int :=
  (number? text).filter fun n => -9223372036854775808 ≤ n ∧ n ≤ 9223372036854775807

def standing? (p : Place) (path : String) : Option Files.Entry :=
  ((p.files.find p.cwd ⟨path⟩).toOption).map (·.2)

/-- Where a path leads, if something stands there. -/
def located? (p : Place) (path : String) : Option Files.Location :=
  ((p.files.find p.cwd ⟨path⟩).toOption).map (·.1)

/-- Why a condition makes no sense. -/
inductive Problem where
  | illegalNumber (text : String)
  | unexpected (word next : String)
  | missing (op : String)
  | unclosed

abbrev Truth := Except Problem Bool

/-! ## Single conditions -/

def unary (p : Place) (op operand : String) : Truth :=
  let e := standing? p operand
  match op with
  | "-n" => .ok !operand.isEmpty
  | "-z" => .ok operand.isEmpty
  | "-e" | "-r" | "-w" | "-O" | "-G" => .ok e.isSome
  | "-f" => .ok (e.any (·.isFile))
  | "-d" => .ok (e = some .directory)
  | "-c" => .ok (e = some .sink)
  | "-s" => .ok (e = some .directory || e.any (·.bytes.size ≠ 0))
  | "-x" => .ok (e = some .directory || e.any (·.isExecutable))
  | "-t" => if (integer? operand).isSome then .ok false else .error (.illegalNumber operand)
  | _ => .ok false

def comparing (a b : String) (holds : Int → Int → Bool) : Truth :=
  match integer? a, integer? b with
  | some x, some y => .ok (holds x y)
  | none, _ => .error (.illegalNumber a)
  | _, none => .error (.illegalNumber b)

/-- Whether a condition on two operands holds. -/
def binary (p : Place) (op a b : String) : Truth :=
  match op with
  | "=" => .ok (a = b)
  | "!=" => .ok (a ≠ b)
  | "<" => .ok (a < b)
  | ">" => .ok (b < a)
  | "-eq" => comparing a b (· = ·)
  | "-ne" => comparing a b (· ≠ ·)
  | "-lt" => comparing a b (· < ·)
  | "-le" => comparing a b (· ≤ ·)
  | "-gt" => comparing a b (· > ·)
  | "-ge" => comparing a b (· ≥ ·)
  | "-ef" => .ok ((located? p a).isSome && located? p a = located? p b)
  | _ => .ok false

/-! ## Joined conditions -/

/-- What a word means in a condition. -/
inductive Sign where
  | unary
  | binary
  | both
  | either
  | negate
  | openBracket
  | closeBracket
deriving DecidableEq

def sign? (word : String) : Option Sign :=
  if word ∈ ["-n", "-z", "-e", "-r", "-w", "-x", "-f", "-d", "-c", "-b", "-p", "-u", "-g", "-k",
    "-s", "-t", "-h", "-L", "-O", "-G", "-S"] then some .unary
  else if word ∈ ["=", "!=", "<", ">", "-eq", "-ne", "-lt", "-le", "-gt", "-ge", "-nt", "-ot",
    "-ef"] then some .binary
  else
    match word with
    | "-a" => some .both
    | "-o" => some .either
    | "!" => some .negate
    | "(" => some .openBracket
    | ")" => some .closeBracket
    | _ => none

/-- How the first of some words is to be read. -/
inductive Reading where
  | nothing
  | operand
  | sign (s : Sign)
deriving DecidableEq

/-- Whether a sign for one operand is an operand itself, by the words behind it. -/
def isOperand : List String → Bool
  | [] => true
  | [_] => false
  | next :: _ => sign? next = some .binary

/-- Reads the first of some words. -/
def reading : List String → Reading
  | [] => .nothing
  | word :: rest =>
    match sign? word with
    | none => .operand
    | some s =>
      if (s = .unary ∧ isOperand rest) ∨ (s = .openBracket ∧ rest.isEmpty) then .operand
      else .sign s

/-- What a reader gives: whether the condition holds, and the words from the last one used on. -/
abbrev Decided := Except Problem (Bool × List String)

mutual
/-- Conditions joined by `-o`. -/
def disjunction (p : Place) : Nat → Reading → List String → Decided
  | 0, _, words => .ok (false, words)
  | fuel + 1, r, words => do
    let (a, words) ← conjunction p fuel r words
    if reading words.tail = .sign .either then
      let words := words.drop 2
      let (b, words) ← disjunction p fuel (reading words) words
      return (a || b, words)
    else return (a, words)

def conjunction (p : Place) : Nat → Reading → List String → Decided
  | 0, _, words => .ok (false, words)
  | fuel + 1, r, words => do
    let (a, words) ← negation p fuel r words
    if reading words.tail = .sign .both then
      let words := words.drop 2
      let (b, words) ← conjunction p fuel (reading words) words
      return (a && b, words)
    else return (a, words)

def negation (p : Place) : Nat → Reading → List String → Decided
  | 0, _, words => .ok (false, words)
  | fuel + 1, r, words =>
    if r = .sign .negate then do
      let next := reading words.tail
      let (a, words) ← negation p fuel next (if next = .nothing then words else words.tail)
      return (!a, words)
    else primary p fuel r words

/-- A single condition, or one in brackets. -/
def primary (p : Place) : Nat → Reading → List String → Decided
  | 0, _, words => .ok (false, words)
  | fuel + 1, r, words =>
    match r with
    | .nothing => .ok (false, words)
    | .sign .openBracket => do
      let words := words.tail
      let next := reading words
      if next = .sign .closeBracket then return (false, words)
      let (a, words) ← disjunction p fuel next words
      if reading words.tail = .sign .closeBracket then return (a, words.tail) else throw .unclosed
    | .sign .unary =>
      match words with
      | op :: operand :: rest => do return (← unary p op operand, operand :: rest)
      | _ => .error (.missing (words.headD ""))
    | _ =>
      match words with
      | a :: op :: rest =>
        if reading (op :: rest) = .sign .binary then
          match rest with
          | b :: _ => do return (← binary p op a b, rest)
          | [] => .error (.missing op)
        else .ok (!a.isEmpty, words)
      | _ => .ok (!(words.headD "").isEmpty, words)
end

/-- Decides a condition whose first word is read in a given way. -/
def decided (p : Place) (r : Reading) (words : List String) : Truth := do
  let (t, words) ← disjunction p (4 * words.length + 4) r words
  match words with
  | word :: next :: _ => throw (.unexpected word next)
  | _ => return t

/-- Whether a condition holds. Of three words with a comparison in the middle the first is an
operand whatever it looks like, and a negation in front of few words is about all of them. -/
def holds (p : Place) (words : List String) : Truth :=
  match words with
  | [] => .ok false
  | [a, op, b] =>
    if sign? op = some .binary then decided p .operand words
    else if a = "(" ∧ b = ")" then decided p (reading [op]) [op]
    else if a = "!" then (holds p [op, b]).map (!·)
    else decided p (reading words) words
  | [a, b, c, d] =>
    if a = "(" ∧ d = ")" then decided p (reading [b, c]) [b, c]
    else if a = "!" then (holds p [b, c, d]).map (!·)
    else decided p (reading words) words
  | words => decided p (reading words) words

end CoverageMatrix.Shell.Test
