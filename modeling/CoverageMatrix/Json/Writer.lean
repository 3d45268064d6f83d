import CoverageMatrix.Data.Basic
import CoverageMatrix.Text.Hex

/-!
Writing JSON: compact, without any space, or indented by two spaces a level. Only quotes,
backslashes and the controls below U+0020 are escaped.
-/
namespace CoverageMatrix.Json

def escapeChar (c : Char) : List Char :=
  match c with
  | '"' => ['\\', '"']
  | '\\' => ['\\', '\\']
  | '\x08' => ['\\', 'b']
  | '\x0c' => ['\\', 'f']
  | '\n' => ['\\', 'n']
  | '\r' => ['\\', 'r']
  | '\t' => ['\\', 't']
  | c =>
    if c.toNat < 0x20 then
      ['\\', 'u', '0', '0', Text.Hex.digit (c.toNat / 16), Text.Hex.digit (c.toNat % 16)]
    else [c]

def writeString (s : String) : List Char :=
  '"' :: s.toList.flatMap escapeChar ++ ['"']

/-- Numbers whose first digit stands for a power of ten from -5 to 15 are written without an
exponent. -/
def layout : Text.Binary64.Layout := ⟨.even, some (-5, 15)⟩

/-- A number that is not whole; JSON has no text for the infinite ones. -/
def writeFloat (x : Text.Binary64) : List Char :=
  match x with
  | .finite _ _ _ => (x.text layout).toList
  | _ => "null".toList

def writeLeaf : Data → List Char
  | .null => "null".toList
  | .bool b => (if b then "true" else "false").toList
  | .int n => (toString n).toList
  | .float x => writeFloat x
  | .text s | .moment s => writeString s
  | .list _ => ['[', ']']
  | .table _ => ['{', '}']

/-! ## Compact -/

mutual
def write : Data → List Char
  | .list items => '[' :: writeItems items ++ [']']
  | .table entries => '{' :: writeEntries entries ++ ['}']
  | d => writeLeaf d

def writeItems : List Data → List Char
  | [] => []
  | [d] => write d
  | d :: rest => write d ++ ',' :: writeItems rest

def writeEntries : List (String × Data) → List Char
  | [] => []
  | [(k, d)] => writeString k ++ ':' :: write d
  | (k, d) :: rest => writeString k ++ ':' :: write d ++ ',' :: writeEntries rest
end

/-- The compact form of data as a text. -/
def compact (d : Data) : String :=
  String.ofList (write d)

/-! ## Indented -/

def newLine (level : Nat) : List Char :=
  '\n' :: List.replicate (2 * level) ' '

mutual
def writeIndented (level : Nat) : Data → List Char
  | .list [] => ['[', ']']
  | .list items => '[' :: indentedItems (level + 1) items ++ newLine level ++ [']']
  | .table [] => ['{', '}']
  | .table entries => '{' :: indentedEntries (level + 1) entries ++ newLine level ++ ['}']
  | d => writeLeaf d

def indentedItems (level : Nat) : List Data → List Char
  | [] => []
  | [d] => newLine level ++ writeIndented level d
  | d :: rest => newLine level ++ writeIndented level d ++ ',' :: indentedItems level rest

def indentedEntries (level : Nat) : List (String × Data) → List Char
  | [] => []
  | [(k, d)] => newLine level ++ writeString k ++ [':', ' '] ++ writeIndented level d
  | (k, d) :: rest =>
    newLine level ++ writeString k ++ [':', ' '] ++ writeIndented level d
      ++ ',' :: indentedEntries level rest
end

/-- The indented form of data as a text. -/
def indented (d : Data) : String :=
  String.ofList (writeIndented 0 d)

end CoverageMatrix.Json
