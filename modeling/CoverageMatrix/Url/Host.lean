import CoverageMatrix.Text.LowerCase
import CoverageMatrix.Text.Unseen
import CoverageMatrix.Url.Number
import CoverageMatrix.Url.Percent
import CoverageMatrix.Url.Punycode

/-!
Hosts of addresses in their normal form. A host is a number or a name; where the scheme is a special
one, names are written in lower case and in ASCII.
-/
namespace CoverageMatrix.Url

/-! ## Names -/

def isForbidden (c : Char) : Bool :=
  c.toNat ≤ 0x20 || c = '\x7f'
    || c ∈ ['%', '#', '/', ':', '<', '>', '?', '@', '[', '\\', ']', '^', '|']

/-- Characters that a name drops: they only tell how the others are to be shown. -/
def isDropped (c : Char) : Bool :=
  c ∈ ['\u00AD', '\u034F', '\u200B', '\u2060', '\u2064', '\uFEFF']
    || (0x180B ≤ c.toNat && c.toNat ≤ 0x180F && c.toNat ≠ 0x180E)
    || (0xFE00 ≤ c.toNat && c.toNat ≤ 0xFE0F) || (0xE0100 ≤ c.toNat && c.toNat ≤ 0xE01EF)

/-- The character that a name holds for a character: wide forms of ASCII are ASCII, and letters are
small. -/
def nameChar (c : Char) : Char :=
  if c ∈ ['\u3002', '\uFF61'] then '.'
  else if 0xFF01 ≤ c.toNat ∧ c.toNat ≤ 0xFF5E then (Char.ofNat (c.toNat - 0xFEE0)).toLower
  else Text.lowerCase c

/-- The characters of a name in the form that it holds them. -/
def nameChars (cs : List Char) : List Char :=
  (cs.filter (!isDropped ·)).map nameChar

def isNameChar (c : Char) : Bool :=
  if c.toNat < 0x80 then !isForbidden c else !Text.isUnseen c

/-- What a part of a name begins with that is written in ASCII for other characters. -/
def asciiMark : List Char := ['x', 'n', '-', '-']

/-- A part of a name in ASCII. -/
def label? (cs : List Char) : Option (List Char) :=
  let isAscii := cs.all (·.toNat < 0x80)
  if isAscii ∧ asciiMark.isPrefixOf cs then do
    let name ← Punycode.decode? (cs.drop asciiMark.length)
    guard (name.any (0x80 ≤ ·.toNat) && nameChars name = name && name.all isNameChar
      && !name.head?.any Text.isJoining)
    return asciiMark ++ Punycode.encode name
  else if isAscii then some cs
  else if cs.head?.any Text.isJoining then none
  else some (asciiMark ++ Punycode.encode cs)

def name? (cs : List Char) : Option (List Char) := do
  let cs := nameChars cs
  guard (cs.all isNameChar)
  let labels ← (pieces (· = '.') cs).mapM label?
  return List.intercalate ['.'] labels

/-! ## Hosts -/

/-- The normal form of a host between brackets. -/
def bracketHost? (cs : List Char) : Option (List Char) :=
  match cs.reverse with
  | ']' :: inner => (eightGroups? inner.reverse).map eightGroupsText
  | _ => none

/-- The normal form of a host where the scheme is a special one. -/
def specialHost? (cs : List Char) : Option (List Char) :=
  match cs with
  | '[' :: rest => bracketHost? rest
  | cs => do
    let name ← name? (← unescaped? cs).toList
    guard !name.isEmpty
    if endsInNumber name then return fourBytesText (← fourBytes? name) else return name

/-- The normal form of a host where the scheme is not a special one. -/
def otherHost? (cs : List Char) : Option (List Char) :=
  match cs with
  | '[' :: rest => bracketHost? rest
  | cs =>
    let isRefused (c : Char) : Bool :=
      c ∈ ['\x00', '\t', '\n', '\r', ' ', '#', '/', ':', '<', '>', '?', '@', '[', '\\', ']', '^',
        '|']
    if cs.any isRefused then none else some (escape isControl cs)

end CoverageMatrix.Url
