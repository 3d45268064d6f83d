import CoverageMatrix.Data.Basic
import CoverageMatrix.Toml.Strings

/-!
Scalars of TOML that are no strings: truth values, numbers, dates and times. A scalar is one
unbroken token, whose whole text decides what it is.
-/
namespace CoverageMatrix.Toml

def isTokenChar (c : Char) : Bool :=
  c.isAlphanum || c = '+' || c = '-' || c = '_' || c = '.' || c = ':'

/-! ## Whole numbers -/

/-- The digits of a row in which single underscores may stand between digits. -/
def digits? (isDigit : Char → Bool) : List Char → Option (List Char)
  | [] => none
  | [c] => if isDigit c then some [c] else none
  | c :: '_' :: rest => if isDigit c then (digits? isDigit rest).map (c :: ·) else none
  | c :: rest => if isDigit c then (digits? isDigit rest).map (c :: ·) else none

/-- The number that digits write in a base. -/
def ofDigits (base : Nat) (ds : List Char) : Nat :=
  ds.foldl (fun n d => n * base + (Text.Hex.value? d).getD 0) 0

def isDigitOf (base : Nat) (c : Char) : Bool :=
  match Text.Hex.value? c with
  | some v => v < base
  | none => false

/-- The digits of a number in base ten: without a zero in front. -/
def decimalDigits? (cs : List Char) : Option (List Char) := do
  let ds ← digits? Char.isDigit cs
  if ds.head? = some '0' ∧ 1 < cs.length then none else some ds

/-- A sign and what follows it: whether it is a minus. -/
def splitSign : List Char → Bool × List Char
  | '-' :: rest => (true, rest)
  | '+' :: rest => (false, rest)
  | cs => (false, cs)

/-- A whole number, if 64 bits hold it. -/
def bounded? (n : Int) : Option Data :=
  if Data.minInt64 ≤ n ∧ n ≤ Data.maxInt64 then some (.int n) else none

/-- A whole number in base ten, or without a sign in base 16, 8 or 2. -/
def integer? (cs : List Char) : Option Data :=
  match cs with
  | '0' :: 'x' :: rest => (digits? (isDigitOf 16) rest).bind fun ds => bounded? (ofDigits 16 ds)
  | '0' :: 'o' :: rest => (digits? (isDigitOf 8) rest).bind fun ds => bounded? (ofDigits 8 ds)
  | '0' :: 'b' :: rest => (digits? (isDigitOf 2) rest).bind fun ds => bounded? (ofDigits 2 ds)
  | _ =>
    let (negative, rest) := splitSign cs
    (decimalDigits? rest).bind fun ds =>
      let n : Int := ofDigits 10 ds
      bounded? (if negative then -n else n)

/-! ## Fractions -/

/-- A number with a fraction or an exponent, or one of the words for the special values. A number
above all that 64 bits hold is refused. -/
def float? (cs : List Char) : Option Data :=
  let (negative, rest) := splitSign cs
  if rest = ['i', 'n', 'f'] then some (.float (.infinite negative))
  else if rest = ['n', 'a', 'n'] then some (.float .nan)
  else do
    let isMark (c : Char) : Bool := c = '.' || c = 'e' || c = 'E'
    let whole ← decimalDigits? (rest.takeWhile (!isMark ·))
    let rest := rest.dropWhile (!isMark ·)
    let (fraction, rest) ← match rest with
      | '.' :: more => do
        let isExponent (c : Char) : Bool := c = 'e' || c = 'E'
        let ds ← digits? Char.isDigit (more.takeWhile (!isExponent ·))
        pure (ds, more.dropWhile (!isExponent ·))
      | more => if more.isEmpty then none else pure ([], more)
    let exponent ← match rest with
      | [] => pure (0 : Int)
      | _ :: more => do
        let (negative, more) := splitSign more
        let ds ← digits? Char.isDigit more
        pure (if negative then -(ofDigits 10 ds : Int) else ofDigits 10 ds)
    let digits := ofDigits 10 (whole ++ fraction)
    match Text.Binary64.ofDecimal negative digits (exponent - fraction.length) with
    | .infinite false => none
    | x => some (.float x)

/-! ## Dates and times -/

/-- The number that exactly `count` digits write, and what follows them. -/
def fixed? (count : Nat) (cs : List Char) : Option (Nat × List Char) :=
  let ds := cs.take count
  if ds.length = count ∧ ds.all Char.isDigit then some (ofDigits 10 ds, cs.drop count) else none

def expect? (c : Char) (cs : List Char) : Option (List Char) :=
  match cs with
  | d :: rest => if c = d then some rest else none
  | [] => none

def daysIn (year month : Nat) : Nat :=
  if month = 2 then
    if year % 4 = 0 ∧ (year % 100 ≠ 0 ∨ year % 400 = 0) then 29 else 28
  else if month ∈ [4, 6, 9, 11] then 30 else 31

/-- A number as at least `width` digits. -/
def padded (width n : Nat) : String :=
  let ds := Nat.toDigits 10 n
  String.ofList (List.replicate (width - ds.length) '0' ++ ds)

/-- A date, as its normal text, and what follows it. -/
def date? (cs : List Char) : Option (String × List Char) := do
  let (year, cs) ← fixed? 4 cs
  let cs ← expect? '-' cs
  let (month, cs) ← fixed? 2 cs
  let cs ← expect? '-' cs
  let (day, cs) ← fixed? 2 cs
  guard (1 ≤ month ∧ month ≤ 12 ∧ 1 ≤ day ∧ day ≤ daysIn year month)
  return (padded 4 year ++ "-" ++ padded 2 month ++ "-" ++ padded 2 day, cs)

/-- A fraction of a second: nine places count, and zeros at the end are not written. -/
def secondFraction (ds : List Char) : String :=
  let kept := ((ds.take 9).reverse.dropWhile (· = '0')).reverse
  if kept.isEmpty then "" else "." ++ String.ofList kept

/-- A time of day, as its normal text, and what follows it. -/
def time? (cs : List Char) : Option (String × List Char) := do
  let (hour, cs) ← fixed? 2 cs
  let cs ← expect? ':' cs
  let (minute, cs) ← fixed? 2 cs
  let cs ← expect? ':' cs
  let (second, cs) ← fixed? 2 cs
  guard (hour ≤ 23 ∧ minute ≤ 59 ∧ second ≤ 60)
  let text := padded 2 hour ++ ":" ++ padded 2 minute ++ ":" ++ padded 2 second
  match cs with
  | '.' :: more =>
    let ds := more.takeWhile Char.isDigit
    if ds.isEmpty then none
    else return (text ++ secondFraction ds, more.dropWhile Char.isDigit)
  | _ => return (text, cs)

/-- The offset of a time from universal time, as its normal text; the whole of a token's rest. -/
def offset? (cs : List Char) : Option String :=
  match cs with
  | [] => some ""
  | ['Z'] | ['z'] => some "Z"
  | sign :: more => do
    guard (sign = '+' ∨ sign = '-')
    let (hour, more) ← fixed? 2 more
    let more ← expect? ':' more
    let (minute, more) ← fixed? 2 more
    guard (hour ≤ 23 ∧ minute ≤ 59 ∧ more = [])
    return String.ofList [sign] ++ padded 2 hour ++ ":" ++ padded 2 minute

/-- A date with or without a time, or a time alone. -/
def moment? (cs : List Char) : Option Data :=
  match date? cs with
  | some (date, []) => some (.moment date)
  | some (date, mark :: more) => do
    guard (mark = 'T' ∨ mark = 't')
    let (time, rest) ← time? more
    let offset ← offset? rest
    return .moment (date ++ "T" ++ time ++ offset)
  | none =>
    match time? cs with
    | some (time, []) => some (.moment time)
    | _ => none

/-! ## Tokens -/

def token? (cs : List Char) : Option Data :=
  if cs = ['t', 'r', 'u', 'e'] then some (.bool true)
  else if cs = ['f', 'a', 'l', 's', 'e'] then some (.bool false)
  else (moment? cs).or ((float? cs).or (integer? cs))

/-- Reads a token. A space may stand between a date and a time. -/
def readScalar (cs : List Char) : Option (Data × List Char) :=
  let token := cs.takeWhile isTokenChar
  let rest := cs.dropWhile isTokenChar
  match date? token, rest with
  | some (_, []), ' ' :: more =>
    let time := more.takeWhile isTokenChar
    if (time.head?.map Char.isDigit).getD false then
      (moment? (token ++ 'T' :: time)).map fun d => (d, more.dropWhile isTokenChar)
    else (token? token).map fun d => (d, rest)
  | _, _ => (token? token).map fun d => (d, rest)

end CoverageMatrix.Toml
