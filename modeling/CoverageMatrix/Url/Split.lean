/-!
Splitting characters.
-/
namespace CoverageMatrix.Url

/-- Splits characters before the first that a test accepts. -/
def splitBefore (p : Char → Bool) (cs : List Char) : List Char × List Char :=
  (cs.takeWhile (!p ·), cs.dropWhile (!p ·))

/-- The pieces of characters between those that a test accepts; at least one. -/
def pieces (p : Char → Bool) : List Char → List (List Char)
  | [] => [[]]
  | c :: rest =>
    if p c then [] :: pieces p rest
    else
      match pieces p rest with
      | first :: more => (c :: first) :: more
      | [] => [[c]]

/-- Splits characters at the first place where two colons stand. -/
def splitAtGap? : List Char → Option (List Char × List Char)
  | ':' :: ':' :: rest => some ([], rest)
  | c :: rest => (splitAtGap? rest).map fun (before, after) => (c :: before, after)
  | [] => none

end CoverageMatrix.Url
