/-!
Binary floating-point numbers of 64 bits. A decimal is read as the nearest such number, ties to the
even significand; a number is written with the fewest digits that read back.
-/
namespace CoverageMatrix.Text

/-- A floating-point number: finite ones are `significand * 2 ^ exponent` with a sign. -/
inductive Binary64 where
  | finite (negative : Bool) (significand : Nat) (exponent : Int)
  | infinite (negative : Bool)
  | nan

namespace Binary64

/-! ## Reading -/

structure Ratio where
  num : Nat
  den : Nat

def Ratio.scaled (n base : Nat) (e : Int) : Ratio :=
  if 0 ≤ e then ⟨n * Nat.pow base e.toNat, 1⟩ else ⟨n, Nat.pow base (-e).toNat⟩

def Ratio.halve (r : Ratio) (q : Int) : Ratio :=
  if 0 ≤ q then ⟨r.num, r.den <<< q.toNat⟩ else ⟨r.num <<< (-q).toNat, r.den⟩

/-- The nearest whole number, ties to even. -/
def Ratio.round (r : Ratio) : Nat :=
  let q := r.num / r.den
  let rest := 2 * (r.num % r.den)
  if rest < r.den then q
  else if r.den < rest then q + 1
  else if q % 2 = 0 then q else q + 1

def bitLength (n : Nat) : Nat :=
  if n = 0 then 0 else Nat.log2 n + 1

/-- The nearest number to a nonnegative fraction. -/
def ofRatio (negative : Bool) (r : Ratio) : Binary64 :=
  if r.num = 0 then .finite negative 0 0
  else
    -- the fraction lies between 2 ^ (guess - 1) and 2 ^ (guess + 1)
    let guess : Int := (bitLength r.num : Int) - (bitLength r.den : Int)
    let low := r.halve (guess - 53)
    let q := if low.num < low.den <<< 53 then guess - 53 else guess - 52
    let q := max q (-1074)
    let m := (r.halve q).round
    let (m, q) := if m = 1 <<< 53 then (1 <<< 52, q + 1) else (m, q)
    if 971 < q then .infinite negative else .finite negative m q

/-- The nearest number to `digits * 10 ^ e`; exponents far outside the range are cut short. -/
def ofDecimal (negative : Bool) (digits : Nat) (e : Int) : Binary64 :=
  let width : Int := (Nat.toDigits 10 digits).length
  if digits = 0 then .finite negative 0 0
  else if 400 < e + width then .infinite negative
  else if e + width < -400 then .finite negative 0 0
  else ofRatio negative (.scaled digits 10 e)

/-! ## Products and quotients -/

/-- The product of two fractions. -/
def Ratio.mul (a b : Ratio) : Ratio := ⟨a.num * b.num, a.den * b.den⟩

/-- The quotient of two fractions; the second is not zero. -/
def Ratio.div (a b : Ratio) : Ratio := ⟨a.num * b.den, a.den * b.num⟩

/-- The value of a number without its sign; what is not finite counts as one over nothing. -/
def magnitude : Binary64 → Ratio
  | .finite _ m q => .scaled m 2 q
  | _ => ⟨1, 0⟩

def negated : Binary64 → Binary64
  | .finite negative m q => .finite (!negative) m q
  | .infinite negative => .infinite (!negative)
  | .nan => .nan

/-! ## Writing -/

/-- The largest `p` in `from - count … from` for which `10 ^ p` does not exceed the fraction. -/
def powerBelow (r : Ratio) : Nat → Int → Int
  | 0, p => p
  | count + 1, p =>
    let t := Ratio.scaled 1 10 p
    if t.num * r.den ≤ r.num * t.den then p else powerBelow r count (p - 1)

/-- Whether the decimal `d * 10 ^ p` reads as the number `m * 2 ^ q`. -/
def readsAs (m : Nat) (q : Int) (d : Nat) (p : Int) : Bool :=
  match ofDecimal false d p with
  | .finite _ m' q' => m = m' && q = q'
  | _ => false

/-- Which of two decimals is taken that are equally near to a number. -/
inductive Tie where
  | even
  | up

/-- The shortest decimal that reads as `m * 2 ^ q`: tries `count` more lengths, the last with
exponent `p`, and of two decimals of one length takes the nearer. -/
def shortestFrom (tie : Tie) (m : Nat) (q : Int) (r : Ratio) : Nat → Int → Nat × Int
  | 0, p => ((Ratio.scaled 1 10 (-p)).num * r.num / ((Ratio.scaled 1 10 (-p)).den * r.den), p)
  | count + 1, p =>
    let t := Ratio.scaled 1 10 (-p)
    let n := t.num * r.num
    let d := t.den * r.den
    let below := n / d
    let lowHit := readsAs m q below p
    let highHit := readsAs m q (below + 1) p
    let rest := 2 * (n % d)
    let takesLow := match tie with
      | .even => decide (rest < d ∨ (rest = d ∧ below % 2 = 0))
      | .up => decide (rest < d)
    if lowHit && (takesLow || !highHit) then (below, p)
    else if highHit then (below + 1, p)
    else shortestFrom tie m q r count (p - 1)

/-- The fewest digits, with their decimal exponent, that read as `m * 2 ^ q`. Only a number just
below a power of ten can round up to digits that end in a zero, and then in one. -/
def shortest (tie : Tie) (m : Nat) (q : Int) : Nat × Int :=
  let r := Ratio.scaled m 2 q
  let (digits, p) := shortestFrom tie m q r 17 (powerBelow r 700 310)
  if digits % 10 = 0 then (digits / 10, p + 1) else (digits, p)

/-- Positional notation with a decimal point, as `digits * 10 ^ e`. -/
def positional (digits : Nat) (e : Int) : String :=
  if 0 ≤ e then toString (digits * Nat.pow 10 e.toNat) ++ ".0"
  else
    let k := (-e).toNat
    let ds := Nat.toDigits 10 digits
    let ds := List.replicate (k + 1 - ds.length) '0' ++ ds
    String.ofList (ds.take (ds.length - k) ++ '.' :: ds.drop (ds.length - k))

/-- Scientific notation: one digit, a point if more follow, and the power of ten with its sign and
at least two digits. -/
def scientific (digits : Nat) (power : Int) : String :=
  let mantissa := match Nat.toDigits 10 digits with
    | [] => []
    | [d] => [d]
    | d :: ds => d :: '.' :: ds
  let sign := if power < 0 then '-' else '+'
  let size := Nat.toDigits 10 power.natAbs
  String.ofList (mantissa ++ 'e' :: sign :: (List.replicate (2 - size.length) '0' ++ size))

structure Layout where
  tie : Tie
  /-- The powers of ten, lowest and highest, with which a first digit is written without an
  exponent; nothing if no number has an exponent. -/
  positionalPowers : Option (Int × Int)

/-- A positive number as `digits * 10 ^ e`, in a layout. -/
def Layout.write (layout : Layout) (digits : Nat) (e : Int) : String :=
  match layout.positionalPowers with
  | none => positional digits e
  | some (low, high) =>
    let power := e + (Nat.toDigits 10 digits).length - 1
    if low ≤ power ∧ power ≤ high then positional digits e else scientific digits power

/-- The text of a number in a layout; `inf` and `NaN` are words. -/
def text (layout : Layout) : Binary64 → String
  | .nan => "NaN"
  | .infinite negative => if negative then "-inf" else "inf"
  | .finite negative m q =>
    let body := if m = 0 then "0.0" else
      let (d, p) := shortest layout.tie m q
      layout.write d p
    if negative then "-" ++ body else body

end Binary64
end CoverageMatrix.Text
