import CoverageMatrix.Text.Hex
import CoverageMatrix.Text.Utf8

/-!
Characters of addresses that are written by their bytes, each as a percent sign and two digits.
Which characters those are depends on the part of the address.
-/
namespace CoverageMatrix.Url

def isControl (c : Char) : Bool :=
  c.toNat < 0x20 || 0x7F ≤ c.toNat

def inFragment (c : Char) : Bool :=
  isControl c || c ∈ [' ', '"', '<', '>', '\x60']

/-- What is escaped in a query; quotes only where the scheme is a special one. -/
def inQuery (isSpecial : Bool) (c : Char) : Bool :=
  isControl c || c ∈ [' ', '"', '#', '<', '>'] || (isSpecial && c = '\'')

def inPath (c : Char) : Bool :=
  inFragment c || c ∈ ['#', '?', '\x7b', '\x7d']

/-- What is escaped in the name and password of a user. -/
def inUser (c : Char) : Bool :=
  inPath c || c ∈ ['/', ':', ';', '=', '@', '[', '\\', ']', '^', '|']

/-- The characters with those escaped that a test accepts. -/
def escape (isEscaped : Char → Bool) (cs : List Char) : List Char :=
  cs.flatMap fun c =>
    if isEscaped c then
      (Text.Utf8.encode c.toString).flatMap fun b => '%' :: Text.Hex.upperDigits 2 b.toNat
    else [c]

/-- The bytes that characters stand for; a percent sign without two digits stands for itself. -/
def unescape : List Char → List UInt8
  | [] => []
  | '%' :: a :: b :: rest =>
    match Text.Hex.value? a, Text.Hex.value? b with
    | some a, some b => UInt8.ofNat (a * 16 + b) :: unescape rest
    | _, _ => Text.Utf8.encode "%" ++ unescape (a :: b :: rest)
  | c :: rest => Text.Utf8.encode c.toString ++ unescape rest

/-- The text that characters stand for, if their bytes are one. -/
def unescaped? (cs : List Char) : Option String :=
  Text.Utf8.ofBytes? (unescape cs).toByteArray

end CoverageMatrix.Url
