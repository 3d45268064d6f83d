import CoverageMatrix.Data.Fragment

/-!
Numbers of JSON. A number without fraction and exponent is whole if 64 bits hold it. Any other is
read in two steps that each round: as many of its digits as 64 bits hold, then their product with a
power of ten, or their quotient by one.
-/
namespace CoverageMatrix.Json

/-! ## Values -/

def ofDigits (ds : List Char) : Nat :=
  ds.foldl (fun n d => n * 10 + (d.toNat - 48)) 0

/-- Appends digits to a number while it stays within 64 bits; gives the digits that are left. -/
def appendDigits : Nat → List Char → Nat × List Char
  | n, [] => (n, [])
  | n, d :: ds =>
    let n' := n * 10 + (d.toNat - 48)
    if (n' : Int) ≤ Data.maxUInt64 then appendDigits n' ds else (n, d :: ds)

/-- The largest power of ten by which a number is multiplied or divided at once. -/
def powerLimit : Int := 308

open Text (Binary64)

/-- The power of ten with an exponent from zero to the limit, rounded. -/
def powerOfTen (e : Int) : Binary64.Ratio :=
  (Binary64.ofDecimal false 1 e).magnitude

/-- The product of a number that is not negative and `10 ^ e`; `none` if it is out of range. -/
def scaled? (x : Binary64) (e : Int) : Option Binary64 :=
  if x.magnitude.num = 0 then some x
  else if powerLimit < e then none
  else if 0 ≤ e then
    match Binary64.ofRatio false (x.magnitude.mul (powerOfTen e)) with
    | .finite s m q => some (.finite s m q)
    | _ => none
  else if -powerLimit ≤ e then
    some (Binary64.ofRatio false (x.magnitude.div (powerOfTen (-e))))
  else
    scaled? (Binary64.ofRatio false (x.magnitude.div (powerOfTen powerLimit))) (e + powerLimit)
termination_by (-e).toNat
decreasing_by
  simp only [powerLimit] at *
  omega

structure Numeral where
  negative : Bool
  whole : List Char
  fraction : Option (List Char)
  exponent : Option Int

/-- The number that is not whole; `none` if it is out of range. -/
def Numeral.float? (n : Numeral) : Option Binary64 :=
  let (digits, left) := appendDigits 0 n.whole
  let fraction := n.fraction.getD []
  let (digits, unused) := appendDigits digits fraction
  let e : Int := left.length - (fraction.length - unused.length) + n.exponent.getD 0
  (scaled? (Binary64.ofRatio false ⟨digits, 1⟩) e).map fun x => if n.negative then x.negated else x

/-- The whole number, if it is written as one and 64 bits hold it. Zero has no sign. -/
def Numeral.int? (n : Numeral) : Option Int :=
  match n.fraction, n.exponent with
  | none, none =>
    let m : Int := ofDigits n.whole
    if n.negative then if m ≠ 0 ∧ Data.minInt64 ≤ -m then some (-m) else none
    else if m ≤ Data.maxUInt64 then some m else none
  | _, _ => none

/-- The value of a number. One that is out of range can be passed over. -/
def Numeral.value (n : Numeral) : Fragment :=
  match n.int? with
  | some m => .int m
  | none =>
    match n.float? with
    | some x => .float x
    | none => .broken .word .numberOutOfRange none

/-! ## Reading -/

/-- Splits off the digits at the beginning, of which there has to be one. -/
def someDigits (cs : List Char) : Except Malformed (List Char × List Char) :=
  let ds := cs.takeWhile Char.isDigit
  let rest := cs.dropWhile Char.isDigit
  if ds.isEmpty then .error (if rest.isEmpty then .endInValue else .invalidNumber)
  else .ok (ds, rest)

/-- Reads the digits after `e` and their sign. -/
def exponentPart (cs : List Char) : Except Malformed (Int × List Char) := do
  let (negative, cs) := match cs with
    | '+' :: rest => (false, rest)
    | '-' :: rest => (true, rest)
    | cs => (false, cs)
  let (ds, rest) ← someDigits cs
  pure (if negative then -(ofDigits ds : Int) else ofDigits ds, rest)

def numeral (negative : Bool) (cs : List Char) : Except Malformed (Numeral × List Char) := do
  let (whole, rest) ← someDigits cs
  if whole.head? = some '0' ∧ 1 < whole.length then throw .invalidNumber
  let (fraction, rest) ← match rest with
    | '.' :: more => (someDigits more).map fun (ds, rest) => (some ds, rest)
    | rest => pure (none, rest)
  let (exponent, rest) ← match rest with
    | 'e' :: more | 'E' :: more => (exponentPart more).map fun (e, rest) => (some e, rest)
    | rest => pure (none, rest)
  pure (⟨negative, whole, fraction, exponent⟩, rest)

/-- Reads a number after its sign: its value and, if it is well-formed, what follows. -/
def number (negative : Bool) (cs : List Char) : Fragment × Option (List Char) :=
  match numeral negative cs with
  | .ok (n, rest) => (n.value, some rest)
  | .error fault => (.broken .word fault (some .invalidNumber), none)

end CoverageMatrix.Json
