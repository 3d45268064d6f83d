import CoverageMatrix.Text.Hex

/-!
Strings of TOML: basic ones with escapes and literal ones without, each on one line or on several.
A body is read after its opening delimiter and gives its text and what follows the closing one.
-/
namespace CoverageMatrix.Toml

/-- Characters that may stand for themselves wherever text is: all but the controls, and the tab. -/
def isPlain (c : Char) : Bool :=
  c = '\t' || (0x20 ≤ c.toNat && c.toNat ≠ 0x7F)

def isSpace (c : Char) : Bool :=
  c = ' ' || c = '\t'

def skipSpace (cs : List Char) : List Char :=
  cs.dropWhile isSpace

/-- What follows a line break at the beginning. -/
def newline? : List Char → Option (List Char)
  | '\n' :: rest => some rest
  | '\r' :: '\n' :: rest => some rest
  | _ => none

/-! ## Escapes -/

/-- The character that a one-letter escape stands for. -/
def simpleEscape? (c : Char) : Option Char :=
  match c with
  | 'b' => some '\x08'
  | 't' => some '\t'
  | 'n' => some '\n'
  | 'f' => some '\x0c'
  | 'r' => some '\r'
  | '"' => some '"'
  | '\\' => some '\\'
  | _ => none

/-- The value of a row of hexadecimal digits. -/
def hexValue? (ds : List Char) : Option Nat :=
  ds.foldlM (fun n d => (Text.Hex.value? d).map (n * 16 + ·)) 0

/-- The character with a given number, if there is one. -/
def scalar? (n : Nat) : Option Char :=
  if n.isValidChar then some (Char.ofNat n) else none

/-- The character that a row of hexadecimal digits names. -/
def escapedScalar? (ds : List Char) : Option Char :=
  (hexValue? ds).bind scalar?

/-! ## Bodies -/

def basicBody : List Char → Option (List Char × List Char)
  | [] => none
  | '"' :: rest => some ([], rest)
  | '\\' :: 'u' :: a :: b :: c :: d :: rest => do
    let x ← escapedScalar? [a, b, c, d]
    let (body, rest) ← basicBody rest
    return (x :: body, rest)
  | '\\' :: 'U' :: a :: b :: c :: d :: e :: f :: g :: h :: rest => do
    let x ← escapedScalar? [a, b, c, d, e, f, g, h]
    let (body, rest) ← basicBody rest
    return (x :: body, rest)
  | '\\' :: x :: rest => do
    let x ← simpleEscape? x
    let (body, rest) ← basicBody rest
    return (x :: body, rest)
  | c :: rest =>
    if c ≠ '\\' ∧ isPlain c then do
      let (body, rest) ← basicBody rest
      return (c :: body, rest)
    else none

def literalBody : List Char → Option (List Char × List Char)
  | [] => none
  | c :: rest =>
    if c = '\'' then some ([], rest)
    else if isPlain c then do
      let (body, rest) ← literalBody rest
      return (c :: body, rest)
    else none

/-- Whether a backslash before these characters joins lines. -/
def joinsLines (cs : List Char) : Bool :=
  (newline? (skipSpace cs)).isSome

/-- The body of a basic string of several lines. While `joining`, space and line breaks are passed
over. Up to two quotes before the closing delimiter belong to the text. -/
def multiBasicBody : Bool → List Char → Option (List Char × List Char)
  | _, [] => none
  | true, ' ' :: rest => multiBasicBody true rest
  | true, '\t' :: rest => multiBasicBody true rest
  | true, '\n' :: rest => multiBasicBody true rest
  | true, '\r' :: '\n' :: rest => multiBasicBody true rest
  | _, '\r' :: '\n' :: rest => do
    let (body, rest) ← multiBasicBody false rest
    return ('\n' :: body, rest)
  | _, '"' :: '"' :: '"' :: '"' :: '"' :: rest => some (['"', '"'], rest)
  | _, '"' :: '"' :: '"' :: '"' :: rest => some (['"'], rest)
  | _, '"' :: '"' :: '"' :: rest => some ([], rest)
  | _, '\\' :: 'u' :: a :: b :: c :: d :: rest => do
    let x ← escapedScalar? [a, b, c, d]
    let (body, rest) ← multiBasicBody false rest
    return (x :: body, rest)
  | _, '\\' :: 'U' :: a :: b :: c :: d :: e :: f :: g :: h :: rest => do
    let x ← escapedScalar? [a, b, c, d, e, f, g, h]
    let (body, rest) ← multiBasicBody false rest
    return (x :: body, rest)
  | _, '\\' :: x :: rest =>
    if joinsLines (x :: rest) then multiBasicBody true (x :: rest)
    else do
      let x ← simpleEscape? x
      let (body, rest) ← multiBasicBody false rest
      return (x :: body, rest)
  | _, c :: rest =>
    if c ≠ '\\' ∧ (c = '\n' ∨ isPlain c) then do
      let (body, rest) ← multiBasicBody false rest
      return (c :: body, rest)
    else none

/-- The body of a literal string of several lines. Up to two quotes before the closing delimiter
belong to the text. -/
def multiLiteralBody : List Char → Option (List Char × List Char)
  | [] => none
  | '\'' :: '\'' :: '\'' :: '\'' :: '\'' :: rest => some (['\'', '\''], rest)
  | '\'' :: '\'' :: '\'' :: '\'' :: rest => some (['\''], rest)
  | '\'' :: '\'' :: '\'' :: rest => some ([], rest)
  | '\r' :: '\n' :: rest => do
    let (body, rest) ← multiLiteralBody rest
    return ('\n' :: body, rest)
  | c :: rest =>
    if c = '\n' ∨ isPlain c then do
      let (body, rest) ← multiLiteralBody rest
      return (c :: body, rest)
    else none

/-- The characters without a line break at their beginning. -/
def skipNewline (cs : List Char) : List Char :=
  (newline? cs).getD cs

/-- Reads a string of any kind; `none` also where no string begins. -/
def string? (cs : List Char) : Option (String × List Char) :=
  (match cs with
    | '"' :: '"' :: '"' :: rest => multiBasicBody false (skipNewline rest)
    | '"' :: rest => basicBody rest
    | '\'' :: '\'' :: '\'' :: rest => multiLiteralBody (skipNewline rest)
    | '\'' :: rest => literalBody rest
    | _ => none).map fun (body, rest) => (String.ofList body, rest)

/-! ## Keys -/

def isBareKeyChar (c : Char) : Bool :=
  c.isAlphanum || c = '_' || c = '-'

def simpleKey? (cs : List Char) : Option (String × List Char) :=
  match cs with
  | '"' :: rest => (basicBody rest).map fun (body, rest) => (String.ofList body, rest)
  | '\'' :: rest => (literalBody rest).map fun (body, rest) => (String.ofList body, rest)
  | _ =>
    let body := cs.takeWhile isBareKeyChar
    if body.isEmpty then none else some (String.ofList body, cs.dropWhile isBareKeyChar)

def keyLimit : Nat := 79

/-- Reads a dotted key of at most `limit` parts, with the space around its parts. -/
def dottedKey? : Nat → List Char → Option (List String × List Char)
  | 0, _ => none
  | limit + 1, cs => do
    let (k, rest) ← simpleKey? (skipSpace cs)
    match skipSpace rest with
    | '.' :: rest =>
      let (ks, rest) ← dottedKey? limit rest
      return (k :: ks, rest)
    | rest => return ([k], rest)

end CoverageMatrix.Toml
