/-!
Names in ASCII for names that are not. The characters of ASCII come first; each other character is
inserted by a number, which says how far the counter of places and code points moves from one
insertion to the next. The numbers are written in base 36 with digits of varying weight.
-/
namespace CoverageMatrix.Url.Punycode

def base : Nat := 36

/-- The weight of a digit at a position, which counts in steps of the base. -/
def threshold (position bias : Nat) : Nat :=
  min 26 (max 1 (position - bias))

/-- Divides a distance until it is small: the bias counts the divisions, and what is left. -/
def settle (steps distance : Nat) : Nat :=
  if 455 < distance then settle (steps + base) (distance / 35)
  else steps + base * distance / (distance + 38)
termination_by distance
decreasing_by exact Nat.div_lt_self (by omega) (by decide)

/-- The bias after a number was written, when `count` characters have their place. -/
def adapted (distance count : Nat) (isFirst : Bool) : Nat :=
  let distance := if isFirst then distance / 700 else distance / 2
  let distance := distance + distance / count
  settle 0 distance

/-! ## Writing -/

/-- A digit: letters come before numerals. -/
def digit (n : Nat) : Char :=
  if n < 26 then Char.ofNat (97 + n) else Char.ofNat (22 + n)

theorem one_le_threshold (position bias : Nat) : 1 ≤ threshold position bias := by
  simp only [threshold]
  omega

/-- What is left of a number after its first digit is smaller. -/
theorem rest_lt {n t : Nat} (ht : 1 ≤ t) (h : ¬n < t) : (n - t) / (base - t) < n :=
  Nat.lt_of_le_of_lt (Nat.div_le_self _ _) (by omega)

/-- A number in digits of varying weight. -/
def writeNumber (bias position n : Nat) : List Char :=
  if n < threshold position bias then [digit n]
  else
    let t := threshold position bias
    digit (t + (n - t) % (base - t)) :: writeNumber bias (position + base) ((n - t) / (base - t))
termination_by n
decreasing_by exact rest_lt (one_le_threshold position bias) (by assumption)

/-- Where the writing of a name has come to. -/
structure Progress where
  output : List Char
  distance : Nat
  bias : Nat
  /-- How many characters have their place. -/
  count : Nat

/-- Writes the places of one code point; `basic` is the number of characters of ASCII. -/
def writePlaces (basic point : Nat) (cs : List Char) (p : Progress) : Progress :=
  cs.foldl (fun p c =>
    if c.toNat < point then { p with distance := p.distance + 1 }
    else if c.toNat = point then
      { output := p.output ++ writeNumber p.bias base p.distance
        distance := 0
        bias := adapted p.distance (p.count + 1) (p.count = basic)
        count := p.count + 1 }
    else p) p

/-- Writes the places of code points in ascending order; `next` is the least that may come. -/
def writePoints (basic : Nat) (cs : List Char) : List Nat → Nat → Progress → List Char
  | [], _, p => p.output
  | point :: rest, next, p =>
    let p := { p with distance := p.distance + (point - next) * (p.count + 1) }
    let p := writePlaces basic point cs p
    writePoints basic cs rest (point + 1) { p with distance := p.distance + 1 }

def encode (cs : List Char) : List Char :=
  let basic := cs.filter (·.toNat < 0x80)
  let points := ((cs.filter (0x80 ≤ ·.toNat)).map Char.toNat).eraseDups.mergeSort (· ≤ ·)
  let start := if basic.isEmpty then [] else basic ++ ['-']
  writePoints basic.length cs points 0x80 ⟨start, 0, 72, basic.length⟩

/-! ## Reading -/

def value? (c : Char) : Option Nat :=
  if c.isLower then some (c.toNat - 97)
  else if c.isUpper then some (c.toNat - 65)
  else if c.isDigit then some (c.toNat - 22)
  else none

/-- Reads a number: its value and what follows. -/
def readNumber? (bias : Nat) : Nat → Nat → Nat → List Char → Option (Nat × List Char)
  | _, _, _, [] => none
  | position, weight, n, c :: rest => do
    let d ← value? c
    let t := threshold position bias
    let n := n + d * weight
    if d < t then return (n, rest)
    else readNumber? bias (position + base) (weight * (base - t)) n rest

/-- Reads the insertions; `place` and `point` say where the last one ended. -/
def insertAll? : Nat → Nat → Nat → Nat → List Char → List Char → Option (List Char)
  | _, _, _, _, name, [] => some name
  | 0, _, _, _, _, _ => none
  | fuel + 1, place, point, bias, name, cs => do
    let (n, rest) ← readNumber? bias base 1 0 cs
    let count := name.length + 1
    let point := point + (place + n) / count
    let spot := (place + n) % count
    guard (point.isValidChar)
    let name := name.take spot ++ Char.ofNat point :: name.drop spot
    insertAll? fuel (spot + 1) point (adapted n count (place = 0)) name rest

/-- The name that a name in ASCII stands for. -/
def decode? (cs : List Char) : Option (List Char) :=
  let reversed := cs.reverse
  let tail := (reversed.takeWhile (· ≠ '-')).reverse
  let basic := ((reversed.dropWhile (· ≠ '-')).drop 1).reverse
  if basic.any (0x80 ≤ ·.toNat) then none
  else insertAll? (cs.length + 1) 0 0x80 72 basic tail

end CoverageMatrix.Url.Punycode
