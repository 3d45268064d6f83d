import CoverageMatrix.Text.Hex
import CoverageMatrix.Url.Split

/-!
Hosts that are numbers: addresses of four bytes, written with up to four numbers in base 10, 8 or
16, and addresses of eight groups of 16 bits, written between brackets. Each has one normal form.
-/
namespace CoverageMatrix.Url

def ofDigits (base : Nat) (ds : List Char) : Nat :=
  ds.foldl (fun n d => n * base + (Text.Hex.value? d).getD 0) 0

def areDigits (base : Nat) (cs : List Char) : Bool :=
  cs.all fun c => (Text.Hex.value? c).any (· < base)

/-! ## Four bytes -/

/-- One number of a host: in base 16 after `0x`, in base 8 after `0`, else in base 10. -/
def hostNumber? (cs : List Char) : Option Nat :=
  let (base, ds) := match cs with
    | '0' :: 'x' :: rest | '0' :: 'X' :: rest => (16, rest)
    | '0' :: c :: rest => (8, c :: rest)
    | cs => (10, cs)
  if cs.isEmpty ∨ ¬areDigits base ds then none else some (ofDigits base ds)

/-- The numbers of a host. A point may follow the last one. -/
def hostParts (cs : List Char) : List (List Char) :=
  let parts := pieces (· = '.') cs
  if parts.getLast? = some [] then parts.dropLast else parts

/-- Whether a host ends in a number, so that it has to be an address of four bytes. -/
def endsInNumber (cs : List Char) : Bool :=
  match (hostParts cs).getLast? with
  | some last => !last.isEmpty && ((areDigits 10 last) || (hostNumber? last).isSome)
  | none => false

/-- The value of an address: all numbers but the last are bytes, and the last fills what is left. -/
def fourBytes? (cs : List Char) : Option Nat := do
  let parts := hostParts cs
  guard (parts.length ≤ 4)
  let numbers ← parts.mapM hostNumber?
  let first := numbers.dropLast
  let last ← numbers.getLast?
  guard (first.all (· ≤ 255) && last < Nat.pow 256 (4 - first.length))
  let places := (List.range first.length).map fun i => Nat.pow 256 (3 - i)
  return (first.zipWith (· * ·) places).foldl (· + ·) last

/-- The normal form of an address of four bytes. -/
def fourBytesText (n : Nat) : List Char :=
  let parts := [n / 16777216 % 256, n / 65536 % 256, n / 256 % 256, n % 256]
  (String.intercalate "." (parts.map toString)).toList

/-! ## Eight groups -/

/-- A group of up to four digits in base 16. -/
def group? (cs : List Char) : Option Nat :=
  if cs ≠ [] ∧ cs.length ≤ 4 ∧ areDigits 16 cs then some (ofDigits 16 cs) else none

/-- A byte in base 10, without a zero in front. -/
def byte? (cs : List Char) : Option Nat := do
  guard (cs ≠ [] ∧ cs.length ≤ 3 ∧ areDigits 10 cs ∧ (cs.head? ≠ some '0' ∨ cs.length = 1))
  let n := ofDigits 10 cs
  guard (n ≤ 255)
  return n

/-- The two groups that four bytes with points between them make. -/
def groupsOfBytes? (cs : List Char) : Option (List Nat) := do
  match ← (pieces (· = '.') cs).mapM byte? with
  | [a, b, c, d] => return [a * 256 + b, c * 256 + d]
  | _ => none

/-- Groups with colons between them; `atEnd` says that the last may be four bytes. -/
def groups? (atEnd : Bool) (cs : List Char) : Option (List Nat) :=
  if cs.isEmpty then some []
  else
    let parts := pieces (· = ':') cs
    match parts.getLast? with
    | none => some []
    | some last =>
      if atEnd ∧ last.contains '.' then do
        let front ← parts.dropLast.mapM group?
        let back ← groupsOfBytes? last
        return front ++ back
      else parts.mapM group?

/-- The groups of an address; two colons stand for as many groups of zero as are missing. -/
def eightGroups? (cs : List Char) : Option (List Nat) := do
  match splitAtGap? cs with
  | none =>
    let groups ← groups? true cs
    guard (groups.length = 8)
    return groups
  | some (before, after) =>
    let front ← groups? false before
    let back ← groups? true after
    guard (front.length + back.length ≤ 7)
    return front ++ List.replicate (8 - front.length - back.length) 0 ++ back

def zerosAtFront (groups : List Nat) : Nat :=
  (groups.takeWhile (· = 0)).length

/-- The place and the length of the first of the longest rows of zeros. -/
def longestZeros (groups : List Nat) : Nat × Nat :=
  (List.range groups.length).foldl (fun best i =>
    let n := zerosAtFront (groups.drop i)
    if best.2 < n then (i, n) else best) (0, 0)

def groupsText (groups : List Nat) : List Char :=
  List.intercalate [':'] (groups.map (Nat.toDigits 16))

/-- The normal form of an address of eight groups: the first of the longest rows of at least two
zeros is left out. -/
def eightGroupsText (groups : List Nat) : List Char :=
  let (start, length) := longestZeros groups
  let body :=
    if length < 2 then groupsText groups
    else groupsText (groups.take start) ++ [':', ':'] ++ groupsText (groups.drop (start + length))
  '[' :: body ++ [']']

end CoverageMatrix.Url
