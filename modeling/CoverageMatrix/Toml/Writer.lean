import CoverageMatrix.Toml.Strings
import CoverageMatrix.Data.Basic

/-!
Writing data as a TOML document. Plain entries of a table come first, then its sections in order,
each under a header of its own. A string is written in the first style that needs no escapes, and in
a basic one with escapes if there is none.
-/
namespace CoverageMatrix.Toml

/-! ## Strings -/

def isControl (c : Char) : Bool :=
  !isPlain c && c ≠ '\n'

/-- The length of the longest row of a character; `current` of them were just passed. -/
def longestRun (q : Char) (current : Nat) : List Char → Nat
  | [] => current
  | c :: rest =>
    if c = q then longestRun q (current + 1) rest else max current (longestRun q 0 rest)

inductive Style where
  | basic
  | literal
  | multiBasic
  | multiLiteral
deriving DecidableEq

/-- Whether a text can be written in a style without escapes other than that of the tab. -/
def Style.fits (cs : List Char) : Style → Bool
  | basic => !cs.any fun c => isControl c || c = '\n' || c = '"' || c = '\\'
  | literal => !cs.any fun c => isControl c || c = '\n' || c = '\''
  | multiBasic => !cs.any (fun c => isControl c || c = '\\') && longestRun '"' 0 cs ≤ 2
  | multiLiteral => !cs.any isControl && longestRun '\'' 0 cs ≤ 2

def Style.of (cs : List Char) : Style :=
  match [Style.basic, .literal, .multiBasic, .multiLiteral].find? (Style.fits cs) with
  | some style => style
  | none => if cs.contains '\n' then .multiBasic else .basic

/-- A character of a basic string that is no quote and no line break. -/
def escapeChar (c : Char) : List Char :=
  match c with
  | '\x08' => ['\\', 'b']
  | '\t' => ['\\', 't']
  | '\n' => ['\\', 'n']
  | '\x0c' => ['\\', 'f']
  | '\r' => ['\\', 'r']
  | '"' => ['\\', '"']
  | '\\' => ['\\', '\\']
  | c => if isControl c then '\\' :: 'u' :: Text.Hex.upperDigits 4 c.toNat else [c]

/-- A body of several lines in basic style: of three quotes in a row the last one is escaped.
`quotes` tells how many were just written. -/
def escapeLines (quotes : Nat) : List Char → List Char
  | [] => []
  | '\n' :: rest => '\n' :: escapeLines 0 rest
  | '"' :: rest =>
    if quotes < 2 then '"' :: escapeLines (quotes + 1) rest
    else '\\' :: '"' :: escapeLines 0 rest
  | c :: rest => escapeChar c ++ escapeLines 0 rest

/-- What stands between the opening delimiter of several lines and the text: a line break of its
own, if the text has one. -/
def leadIn (cs : List Char) : List Char :=
  if cs.contains '\n' then ['\n'] else []

def writeStyled (cs : List Char) : Style → List Char
  | .basic => '"' :: cs.flatMap escapeChar ++ ['"']
  | .literal => '\'' :: cs ++ ['\'']
  | .multiBasic => ['"', '"', '"'] ++ leadIn cs ++ escapeLines 0 cs ++ ['"', '"', '"']
  | .multiLiteral => ['\'', '\'', '\''] ++ leadIn cs ++ cs ++ ['\'', '\'', '\'']

def writeString (s : String) : List Char :=
  writeStyled s.toList (Style.of s.toList)

/-- A key: as it is if it can be, else as a string on one line. -/
def writeKey (k : String) : List Char :=
  let cs := k.toList
  if cs ≠ [] ∧ cs.all isBareKeyChar then cs
  else if Style.basic.fits cs then writeStyled cs .basic
  else if Style.literal.fits cs then writeStyled cs .literal
  else writeStyled cs .basic

/-- The keys that lead to a table, with points between them. -/
def writePath (path : List String) : List Char :=
  List.intercalate ['.'] (path.map writeKey)

/-! ## Values -/

/-- Numbers are written without an exponent. -/
def layout : Text.Binary64.Layout := ⟨.up, none⟩

mutual
/-- A value on the right of a key; `none` for what the format cannot hold. -/
def writeValue? : Data → Option (List Char)
  | .null => none
  | .bool b => some (if b then "true" else "false").toList
  | .int n => if n ≤ Data.maxInt64 then some (toString n).toList else none
  | .float x => some (x.text layout).toList
  | .text s => some (writeString s)
  | .moment s => some s.toList
  | .list [] => some ['[', ']']
  | .list [d] => (writeValue? d).map fun item => '[' :: item ++ [']']
  | .list items => (writeItems? items).map fun body => '[' :: '\n' :: body ++ [']']
  | .table [] => some ['{', '}']
  | .table entries => (writePairs? entries).map fun body => '{' :: body ++ [' ', '}']

def writeItems? : List Data → Option (List Char)
  | [] => some []
  | d :: rest => do
    let item ← writeValue? d
    let more ← writeItems? rest
    return List.replicate 4 ' ' ++ item ++ ',' :: '\n' :: more

/-- The entries of a table inside a line. -/
def writePairs? : List (String × Data) → Option (List Char)
  | [] => some []
  | (k, d) :: rest => do
    let value ← writeValue? d
    let more ← writePairs? rest
    let comma := if rest.isEmpty then [] else [',']
    return ' ' :: writeKey k ++ [' ', '=', ' '] ++ value ++ comma ++ more
end

/-! ## Documents -/

def isTable : Data → Bool
  | .table _ => true
  | _ => false

/-- Whether data is written under headers: a table, or a list of tables that is not empty. -/
def isSection : Data → Bool
  | .table _ => true
  | .list items => !items.isEmpty && items.all isTable
  | _ => false

/-- The plain entries of a table, one a line. -/
def writePlain? : List (String × Data) → Option (List Char)
  | [] => some []
  | (k, d) :: rest =>
    if isSection d then writePlain? rest
    else do
      let value ← writeValue? d
      let more ← writePlain? rest
      return writeKey k ++ [' ', '=', ' '] ++ value ++ '\n' :: more

/-- Whether a table shows a header: one that holds nothing but sections shows none. -/
def showsHeader (entries : List (String × Data)) : Bool :=
  entries.isEmpty || !entries.all fun e => isSection e.2

mutual
def writeSection? (path : List String) : Data → Option (List Char)
  | .table entries => do
    let plain ← writePlain? entries
    let inner ← writeSections? path entries
    let header := if showsHeader entries then '\n' :: '[' :: writePath path ++ [']', '\n'] else []
    return header ++ plain ++ inner
  | .list items => if isSection (.list items) then writeTables? path items else some []
  | _ => some []

def writeTables? (path : List String) : List Data → Option (List Char)
  | [] => some []
  | .table entries :: rest => do
    let plain ← writePlain? entries
    let inner ← writeSections? path entries
    let more ← writeTables? path rest
    return ['\n', '[', '['] ++ writePath path ++ [']', ']', '\n'] ++ plain ++ inner ++ more
  | _ :: rest => writeTables? path rest

/-- The sections among the entries of a table. -/
def writeSections? (path : List String) : List (String × Data) → Option (List Char)
  | [] => some []
  | (k, d) :: rest => do
    let first ← writeSection? (path ++ [k]) d
    let more ← writeSections? path rest
    return first ++ more
end

/-- The document of a table; `none` if the format cannot hold all of its values. -/
def document? : Data → Option String
  | .table entries => do
    let plain ← writePlain? entries
    let inner ← writeSections? [] entries
    return String.ofList (plain ++ inner)
  | _ => none

end CoverageMatrix.Toml
