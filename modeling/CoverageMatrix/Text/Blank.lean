/-!
Blank characters: those with the Unicode property White_Space. A text is blank when it holds
nothing else.
-/
namespace CoverageMatrix.Text

/-- The characters with the property White_Space. -/
def isBlankChar (c : Char) : Bool :=
  let n := c.toNat
  (0x9 ≤ n && n ≤ 0xD) || n = 0x20 || n = 0x85 || n = 0xA0 || n = 0x1680
    || (0x2000 ≤ n && n ≤ 0x200A) || n = 0x2028 || n = 0x2029 || n = 0x202F || n = 0x205F
    || n = 0x3000

/-- A text is blank when nothing is left of it once its blank ends are cut off. -/
def isBlank (text : String) : Bool :=
  text.toList.all isBlankChar

end CoverageMatrix.Text
