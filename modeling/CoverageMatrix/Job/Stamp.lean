import CoverageMatrix.Text.Hex

/-!
Stamps: what sets one run apart from others. A run is named by a random identifier, and all of it is
taken to happen at one moment.
-/
namespace CoverageMatrix

/-- The name of a run, and the time at which all of it is taken to happen. -/
structure Stamp where
  runId : String
  time : String
deriving DecidableEq

namespace Stamp

/-- Sixteen bytes as an identifier of random kind: digits in groups of 8, 4, 4, 4
and 12, in which the version and the variant are fixed. -/
def identifier (bytes : List UInt8) : String :=
  let fixed := bytes.zipIdx.map fun (b, k) =>
    if k = 6 then b % 16 + 0x40 else if k = 8 then b % 64 + 0x80 else b
  let cs := Text.Hex.encode fixed
  let group (start count : Nat) : String := String.ofList ((cs.drop start).take count)
  String.intercalate "-" [group 0 8, group 8 4, group 12 4, group 16 4, group 20 12]

def twoDigits (n : Nat) : String :=
  if n < 10 then "0" ++ toString n else toString n

/-- The date of a day, counted from the first of January 1970: years are counted from the first of
March, so that the day that a leap year adds is the last one. -/
def date (day : Nat) : String :=
  let shifted := day + 719468
  let era := shifted / 146097
  let dayOfEra := shifted % 146097
  let yearOfEra := (dayOfEra - dayOfEra / 1460 + dayOfEra / 36524 - dayOfEra / 146096) / 365
  let dayOfYear := dayOfEra - (365 * yearOfEra + yearOfEra / 4 - yearOfEra / 100)
  let monthFromMarch := (5 * dayOfYear + 2) / 153
  let dayOfMonth := dayOfYear - (153 * monthFromMarch + 2) / 5 + 1
  let month := if monthFromMarch < 10 then monthFromMarch + 3 else monthFromMarch - 9
  let year := yearOfEra + era * 400 + (if month ≤ 2 then 1 else 0)
  toString year ++ "-" ++ twoDigits month ++ "-" ++ twoDigits dayOfMonth

/-- A moment in universal time, counted in seconds from the beginning of 1970. -/
def moment (seconds : Nat) : String :=
  let rest := seconds % 86400
  date (seconds / 86400) ++ "T" ++ twoDigits (rest / 3600) ++ ":" ++ twoDigits (rest / 60 % 60)
    ++ ":" ++ twoDigits (rest % 60) ++ "Z"

end Stamp
end CoverageMatrix
