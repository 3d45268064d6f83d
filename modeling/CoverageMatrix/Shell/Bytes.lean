import CoverageMatrix.Shell.Arithmetic
import CoverageMatrix.Text.Utf8

/-!
Bytes as programs read and print them: lines, escapes and formatted output.
-/
namespace CoverageMatrix.Shell.Bytes

def ofText (text : String) : ByteArray :=
  text.toUTF8

/-- Some bytes put together. -/
def ofList (bytes : List UInt8) : ByteArray :=
  bytes.toByteArray

def lineEnd : UInt8 := 10

/-- Splits bytes behind each line break; the last line may lack one. -/
def lines : List UInt8 → List (List UInt8)
  | [] => []
  | b :: rest =>
    if b = lineEnd then [b] :: lines rest
    else
      match lines rest with
      | [] => [[b]]
      | first :: more => (b :: first) :: more

/-! ## Escapes -/

/-- Which escapes a text knows beside those of one letter and those of octal digits. -/
structure EscapeRules where
  /-- Up to three octal digits may follow a zero. -/
  zeroFirst : Bool
  /-- An escape ends all output. -/
  stops : Bool
  /-- Hexadecimal digits. -/
  wide : Bool

/-- The escapes in the format of the shell's own command. -/
def EscapeRules.format : EscapeRules := ⟨false, false, false⟩

/-- The escapes in arguments of the shell's own commands. -/
def EscapeRules.argument : EscapeRules := ⟨true, true, false⟩

def EscapeRules.wideFormat : EscapeRules := ⟨false, true, true⟩

def EscapeRules.wideArgument : EscapeRules := ⟨true, true, true⟩

def letterEscape? (c : Char) : Option UInt8 :=
  match c with
  | 'a' => some 7
  | 'b' => some 8
  | 'e' => some 27
  | 'f' => some 12
  | 'n' => some 10
  | 'r' => some 13
  | 't' => some 9
  | 'v' => some 11
  | '\\' => some 92
  | _ => none

def isOctal (c : Char) : Bool :=
  '0' ≤ c && c ≤ '7'

def octalByte (ds : List Char) : UInt8 :=
  UInt8.ofNat (ds.foldl (fun n d => n * 8 + (d.toNat - 48)) 0)

/-- The octal digits at the beginning, at most `limit`. -/
def octalDigits (limit : Nat) (cs : List Char) : List Char :=
  (cs.take limit).takeWhile isOctal

inductive Escape where
  /-- A byte, after so many characters. -/
  | byte (b : UInt8) (length : Nat)
  /-- Output ends here. -/
  | stop
  /-- The backslash stands for itself. -/
  | plain

/-- The escape of up to two hexadecimal digits. -/
def hexEscape (cs : List Char) : Escape :=
  let ds := (cs.take 2).takeWhile fun c => (Text.Hex.value? c).isSome
  if ds.isEmpty then .plain
  else .byte (UInt8.ofNat (ds.foldl (fun n d => n * 16 + (Text.Hex.value? d).getD 0) 0))
    (ds.length + 1)

def escape (rules : EscapeRules) (cs : List Char) : Escape :=
  match cs with
  | [] => .plain
  | c :: rest =>
    if c = 'c' ∧ rules.stops then .stop
    else if c = 'x' ∧ rules.wide then hexEscape rest
    else if c = '0' ∧ rules.zeroFirst then
      let ds := octalDigits 3 rest
      .byte (octalByte ds) (ds.length + 1)
    else if isOctal c then
      let ds := octalDigits 3 cs
      .byte (octalByte ds) ds.length
    else
      match letterEscape? c with
      | some b => .byte b 1
      | none => .plain

/-- A text with its escapes resolved, and whether it stops all output. -/
def unescape (rules : EscapeRules) : Nat → List Char → List UInt8 × Bool
  | 0, _ => ([], false)
  | _ + 1, [] => ([], false)
  | fuel + 1, '\\' :: rest =>
    match escape rules rest with
    | .stop => ([], true)
    | .plain =>
      let (more, stop) := unescape rules fuel rest
      (92 :: more, stop)
    | .byte b n =>
      let (more, stop) := unescape rules fuel (rest.drop n)
      (b :: more, stop)
  | fuel + 1, c :: rest =>
    let (more, stop) := unescape rules fuel rest
    (Text.Utf8.encode c.toString ++ more, stop)

/-! ## Formatted output -/

structure Layout where
  left : Bool := false
  zeros : Bool := false
  /-- What stands before a number that is not negative. -/
  sign : String := ""
  width : Nat := 0
  precision : Option Nat := none

structure Conversion where
  layout : Layout
  /-- Whether the width is taken from the arguments. -/
  widthAsked : Bool
  /-- The letter; nothing if the format ends before it. -/
  letter : Option Char
  /-- How the conversion is written. -/
  text : String

/-- Reads a conversion behind its percent sign. -/
def conversion (cs : List Char) : Conversion × List Char :=
  let isFlag (c : Char) : Bool := c ∈ ['-', '0', '+', ' ', '#']
  let number (cs : List Char) : Nat := cs.foldl (fun n d => n * 10 + (d.toNat - 48)) 0
  let flags := cs.takeWhile isFlag
  let rest := cs.dropWhile isFlag
  let (asked, rest) := match rest with
    | '*' :: rest => (true, rest)
    | rest => (false, rest)
  let width := number (rest.takeWhile Char.isDigit)
  let rest := rest.dropWhile Char.isDigit
  let (precision, rest) := match rest with
    | '.' :: rest => (some (number (rest.takeWhile Char.isDigit)), rest.dropWhile Char.isDigit)
    | rest => (none, rest)
  let sign := if flags.contains '+' then "+" else if flags.contains ' ' then " " else ""
  let layout : Layout := ⟨flags.contains '-', flags.contains '0', sign, width, precision⟩
  (⟨layout, asked, rest.head?,
    String.ofList ('%' :: cs.take (cs.length - rest.length) ++ rest.take 1)⟩, rest.drop 1)

def padded (l : Layout) (bytes : List UInt8) : List UInt8 :=
  let fill := List.replicate (l.width - bytes.length) (32 : UInt8)
  if l.left then bytes ++ fill else fill ++ bytes

def paddedDigits (l : Layout) (sign digits : String) : List UInt8 :=
  let digits := String.ofList (List.replicate (l.precision.getD 1 - digits.length) '0') ++ digits
  let zeros := if l.zeros ∧ ¬l.left ∧ l.precision.isNone then
    String.ofList (List.replicate (l.width - sign.length - digits.length) '0') else ""
  padded l (Text.Utf8.encode (sign ++ zeros ++ digits))

/-- How much of an argument was the number asked for. -/
inductive Fit where
  | all
  | part
  | none
  /-- All of it, but there is no such number of 64 bits. -/
  | tooLarge
deriving DecidableEq

/-- The number at the beginning of an argument. A quote gives the code of the next character. -/
def numberOf (text : String) : Int × Fit :=
  let cs := text.toList.dropWhile (· = ' ')
  match cs with
  | '\'' :: c :: _ | '"' :: c :: _ => (c.toNat, .all)
  | _ =>
    let (negative, cs) := match cs with
      | '-' :: cs => (true, cs)
      | '+' :: cs => (false, cs)
      | cs => (false, cs)
    let (n, rest) := Arithmetic.natural cs
    let fit : Fit :=
      if text.isEmpty then .all
      else if rest.length = cs.length then .none
      else if !rest.isEmpty then .part
      else if 9223372036854775807 < n then .tooLarge
      else .all
    let n : Int := (min n 9223372036854775807 : Nat)
    (if negative then -n else n, fit)

structure Converted where
  bytes : List UInt8
  fit : Fit := .all
  stops : Bool := false

/-- Converts an argument; nothing if there is no such conversion. -/
def convert? (rules : EscapeRules) (l : Layout) (letter : Char) (argument : String) :
    Option Converted :=
  let (n, fit) := numberOf argument
  let unsigned : Nat := (if n < 0 then n + 18446744073709551616 else n).toNat
  match letter with
  | 's' =>
    let bytes := Text.Utf8.encode argument
    some { bytes := padded l (match l.precision with
      | some p => bytes.take p
      | none => bytes) }
  | 'b' =>
    let (bytes, stops) := unescape rules (argument.length + 1) argument.toList
    some { bytes := padded l bytes, stops := stops }
  | 'c' => some { bytes := padded l ((Text.Utf8.encode argument).take 1) }
  | 'd' | 'i' =>
    some ⟨paddedDigits l (if n < 0 then "-" else l.sign) (toString n.natAbs), fit, false⟩
  | 'u' => some ⟨paddedDigits l "" (toString unsigned), fit, false⟩
  | 'o' => some ⟨paddedDigits l "" (String.ofList (Nat.toDigits 8 unsigned)), fit, false⟩
  | 'x' => some ⟨paddedDigits l "" (String.ofList (Nat.toDigits 16 unsigned)), fit, false⟩
  | 'X' =>
    let digits := (Nat.toDigits 16 unsigned).map Char.toUpper
    some ⟨paddedDigits l "" (String.ofList digits), fit, false⟩
  | _ => none

structure Formatted where
  bytes : List UInt8 := []
  rest : List String
  /-- The arguments that were not fit for their conversions. -/
  unfit : List (String × Fit) := []
  stopped : Bool := false
  /-- A conversion that there is not, or one without a letter. -/
  invalid : Option (String × Bool) := none

/-- Puts what was given so far before what formatting gives. -/
def Formatted.after (bytes : List UInt8) (unfit : List (String × Fit)) (f : Formatted) :
    Formatted :=
  { f with bytes := bytes ++ f.bytes, unfit := unfit ++ f.unfit }

/-- The rules of a format and of the arguments in it. -/
structure FormatRules where
  format : EscapeRules
  argument : EscapeRules

def formatOnce (rules : FormatRules) : Nat → List Char → List String → Formatted
  | 0, _, args => { rest := args, stopped := true }
  | _ + 1, [], args => { rest := args }
  | fuel + 1, '%' :: '%' :: rest, args => (formatOnce rules fuel rest args).after [37] []
  | fuel + 1, '%' :: rest, args =>
    let (c, rest) := conversion rest
    let (layout, args) := if c.widthAsked then
      ({ c.layout with width := (numberOf (args.headD "")).1.toNat }, args.tail)
      else (c.layout, args)
    match c.letter.bind fun letter => convert? rules.argument layout letter (args.headD "") with
    | none => { rest := args, stopped := true, invalid := some (c.text, c.letter.isNone) }
    | some v =>
      let unfit := if v.fit = .all then [] else [(args.headD "", v.fit)]
      if v.stops then { bytes := v.bytes, rest := [], unfit := unfit, stopped := true }
      else (formatOnce rules fuel rest args.tail).after v.bytes unfit
  | fuel + 1, '\\' :: rest, args =>
    match escape rules.format rest with
    | .stop => { rest := [], stopped := true }
    | .byte b n => (formatOnce rules fuel (rest.drop n) args).after [b] []
    | .plain =>
      match rest with
      | '"' :: rest => (formatOnce rules fuel rest args).after [34] []
      | rest => (formatOnce rules fuel rest args).after [92] []
  | fuel + 1, c :: rest, args =>
    (formatOnce rules fuel rest args).after (Text.Utf8.encode c.toString) []

/-- Goes through a format until all arguments are used. -/
def format (rules : FormatRules) : Nat → List Char → List String → Formatted
  | 0, _, args => { rest := args, stopped := true }
  | fuel + 1, cs, args =>
    let f := formatOnce rules (cs.length + 1) cs args
    if f.stopped ∨ f.rest.isEmpty ∨ f.rest.length = args.length then f
    else (format rules fuel cs f.rest).after f.bytes f.unfit

end CoverageMatrix.Shell.Bytes
