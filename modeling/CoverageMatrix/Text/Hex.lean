/-!
Bytes written as pairs of lower-case hexadecimal digits.
-/
namespace CoverageMatrix.Text.Hex

/-- The hexadecimal digit of a number below sixteen. -/
def digit (n : Nat) : Char :=
  if n < 10 then Char.ofNat (48 + n) else Char.ofNat (87 + n)

/-- The value of a hexadecimal digit, in either case. -/
def value? (c : Char) : Option Nat :=
  if '0' ≤ c && c ≤ '9' then some (c.toNat - 48)
  else if 'a' ≤ c && c ≤ 'f' then some (c.toNat - 87)
  else if 'A' ≤ c && c ≤ 'F' then some (c.toNat - 55)
  else none

def encode (bytes : List UInt8) : List Char :=
  bytes.flatMap fun b => [digit (b.toNat / 16), digit (b.toNat % 16)]

/-- Reads pairs of digits back; `none` on any other character or an odd count. -/
def decode? : List Char → Option (List UInt8)
  | [] => some []
  | [_] => none
  | a :: b :: rest => do
    let high ← value? a
    let low ← value? b
    let bytes ← decode? rest
    return UInt8.ofNat (high * 16 + low) :: bytes

/-- A number as exactly `width` upper-case hexadecimal digits. -/
def upperDigits : Nat → Nat → List Char
  | 0, _ => []
  | width + 1, n =>
    let d := n % 16
    upperDigits width (n / 16) ++ [if d < 10 then Char.ofNat (48 + d) else Char.ofNat (55 + d)]

end CoverageMatrix.Text.Hex
