import CoverageMatrix.Toml.Scalars
import CoverageMatrix.Toml.Table

/-!
Reading the lines of a TOML document: entries, headers of tables and headers of tables in a list.
What the lines mean together is decided in `Toml.Document`.
-/
namespace CoverageMatrix.Toml

inductive Line where
  | blank
  | entry (key : List String) (value : Data)
  | table (key : List String)
  | listTable (key : List String)

/-! ## Space between values -/

/-- Passes over space, line breaks and comments; the mark tells whether a comment is open. -/
def skipBlank : Bool → List Char → List Char
  | _, [] => []
  | _, '\n' :: rest => skipBlank false rest
  | _, '\r' :: '\n' :: rest => skipBlank false rest
  | true, c :: rest => if isPlain c then skipBlank true rest else c :: rest
  | false, c :: rest =>
    if c = '#' then skipBlank true rest
    else if isSpace c then skipBlank false rest
    else c :: rest

/-- Passes over the end of a line: space, a comment, and a line break or the end of the text. -/
def lineEnd? (cs : List Char) : Option (List Char) :=
  let rest := match skipSpace cs with
    | '#' :: rest => rest.dropWhile isPlain
    | rest => rest
  if rest.isEmpty then some [] else newline? rest

/-! ## Values -/

/-- An inline table from its keys and values. -/
def inlineTable? (pairs : List (List String × Data)) : Option Data :=
  (pairs.foldlM (fun es p => Entries.putValue p.2 p.1 es) []).map fun es =>
    .table (entriesToData es)

mutual
/-- Reads a value; lists and inline tables may be nested `depth` deep. -/
def value? : Nat → Nat → List Char → Option (Data × List Char)
  | 0, _, _ => none
  | fuel + 1, depth, cs =>
    match cs with
    | '"' :: _ | '\'' :: _ => (string? cs).map fun (s, rest) => (.text s, rest)
    | '[' :: rest =>
      match depth with
      | 0 => none
      | depth + 1 => (items? fuel depth rest).map fun (ds, rest) => (.list ds, rest)
    | '{' :: rest =>
      match depth with
      | 0 => none
      | depth + 1 => do
        match skipSpace rest with
        | '}' :: rest => return (.table [], rest)
        | rest =>
          let (pairs, rest) ← pairs? fuel depth rest
          let d ← inlineTable? pairs
          return (d, rest)
    | _ => readScalar cs

/-- Reads the items of a list and its end. A comma may follow the last item. -/
def items? : Nat → Nat → List Char → Option (List Data × List Char)
  | 0, _, _ => none
  | fuel + 1, depth, cs =>
    match skipBlank false cs with
    | ']' :: rest => some ([], rest)
    | cs => do
      let (d, rest) ← value? fuel depth cs
      match skipBlank false rest with
      | ']' :: rest => return ([d], rest)
      | ',' :: rest =>
        let (ds, rest) ← items? fuel depth rest
        return (d :: ds, rest)
      | _ => none

/-- Reads the entries of an inline table that is not empty, and its end. -/
def pairs? : Nat → Nat → List Char → Option (List (List String × Data) × List Char)
  | 0, _, _ => none
  | fuel + 1, depth, cs => do
    let (k, rest) ← dottedKey? keyLimit cs
    match rest with
    | '=' :: rest =>
      let (d, rest) ← value? fuel depth (skipSpace rest)
      match skipSpace rest with
      | '}' :: rest => return ([(k, d)], rest)
      | ',' :: rest =>
        let (ps, rest) ← pairs? fuel depth rest
        return ((k, d) :: ps, rest)
      | _ => none
    | _ => none
end

/-- How deep lists and inline tables may be nested. -/
def depthLimit : Nat := 79

/-! ## Lines -/

/-- Reads the header of a table after its brackets have opened. -/
def header? (close : List Char) (cs : List Char) : Option (List String × List Char) := do
  let (k, rest) ← dottedKey? keyLimit cs
  if close.isPrefixOf rest then return (k, rest.drop close.length) else none

/-- Reads one line without its end; `fuel` bounds the length of a value. -/
def lineBody? (fuel : Nat) (cs : List Char) : Option (Line × List Char) :=
  match skipSpace cs with
  | [] => some (.blank, [])
  | '\n' :: rest => some (.blank, '\n' :: rest)
  | '\r' :: rest => some (.blank, '\r' :: rest)
  | '#' :: rest => some (.blank, '#' :: rest)
  | '[' :: '[' :: rest => (header? [']', ']'] rest).map fun (k, rest) => (.listTable k, rest)
  | '[' :: rest => (header? [']'] rest).map fun (k, rest) => (.table k, rest)
  | cs => do
    let (k, rest) ← dottedKey? keyLimit cs
    match rest with
    | '=' :: rest =>
      let (d, rest) ← value? fuel depthLimit (skipSpace rest)
      return (.entry k d, rest)
    | _ => none

/-- Reads the lines of a text; each takes at least one character. -/
def lines? : Nat → List Char → Option (List Line)
  | _, [] => some []
  | 0, _ => none
  | fuel + 1, cs => do
    let (line, rest) ← lineBody? (fuel + 1) cs
    let rest ← lineEnd? rest
    let more ← lines? fuel rest
    return line :: more

end CoverageMatrix.Toml
