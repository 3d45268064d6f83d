import CoverageMatrix.Shell.Programs.Basic

/-!
Programs that read files or their input and print some of it.
-/
namespace CoverageMatrix.Shell.Programs

/-! ## Whole files -/

/-- Prints the content of files, changed by a function. -/
def filter (s : Setting) (operands : List String) (change : List UInt8 → List UInt8)
    (complain : String → Files.Fault → String) : Effect :=
  let names := if operands.isEmpty then ["-"] else operands
  { each s names fun s name =>
      match content s name with
      | .ok bytes => printing s (Bytes.ofList (change bytes.toList))
      | .error fault => complaint s 1 (complain name fault)
    with input := if names.contains "-" then .empty else s.input }

def namedFault (name : String) (fault : Files.Fault) : String :=
  name ++ ": " ++ faultText fault

def cat (s : Setting) : Effect :=
  filter s (s.args.filter fun a => a = "-" || !a.startsWith "-") id namedFault

/-- Prints files, the last line first. -/
def tac (s : Setting) : Effect :=
  filter s (options s.args).2 (fun bytes => (Bytes.lines bytes).reverse.flatten) fun name fault =>
    "failed to open '" ++ name ++ "' for reading: " ++ faultText fault

/-! ## Beginnings and ends -/

/-- The count of an option such as `-n 5`, `-n5` or `-5`, with the option's letter. -/
def countOption : List String → (Option (Char × String)) × List String
  | [] => (none, [])
  | a :: rest =>
    match a.toList with
    | ['-', c] =>
      if c = 'n' ∨ c = 'c' then
        match rest with
        | n :: rest => (some (c, n), rest)
        | [] => (none, [])
      else if c.isDigit then (some ('n', c.toString), rest)
      else countOption rest
    | '-' :: c :: cs =>
      if c = 'n' ∨ c = 'c' then (some (c, String.ofList cs), rest)
      else if c.isDigit then (some ('n', String.ofList (c :: cs)), rest)
      else countOption rest
    | _ =>
      let (found, operands) := countOption rest
      (found, a :: operands)

/-- Prints a part of each file, under its name if there are several. -/
def excerpt (s : Setting) (operands : List String) (part : List UInt8 → List UInt8) : Effect :=
  let complain (name : String) (fault : Files.Fault) : String :=
    "cannot open '" ++ name ++ "' for reading: " ++ faultText fault
  if operands.length ≤ 1 then filter s operands part complain
  else each s operands fun s name =>
    match content s name with
    | .ok bytes =>
      let gap := if operands.head? = some name then "" else "\n"
      let heading := gap ++ "==> " ++ name ++ " <==\n"
      printing s (Bytes.ofText heading ++ Bytes.ofList (part bytes.toList))
    | .error fault => complaint s 1 (complain name fault)

/-- Prints the beginning of files. -/
def head (s : Setting) : Effect :=
  let (count, operands) := countOption s.args
  let (letter, text) := count.getD ('n', "10")
  let n := (Test.number? text).getD 10
  let first {α : Type} (l : List α) : List α :=
    if n < 0 then l.take (l.length - n.natAbs) else l.take n.toNat
  excerpt s operands fun bytes =>
    if letter = 'c' then first bytes else (first (Bytes.lines bytes)).flatten

/-- Prints the end of files. -/
def tail (s : Setting) : Effect :=
  let (count, operands) := countOption s.args
  let (letter, text) := count.getD ('n', "10")
  let n := ((Test.number? text).getD 10).natAbs
  let last {α : Type} (l : List α) : List α :=
    if text.startsWith "+" then l.drop (n - 1) else l.drop (l.length - n)
  excerpt s operands fun bytes =>
    if letter = 'c' then last bytes else (last (Bytes.lines bytes)).flatten

/-! ## Counting -/

/-- How many words bytes hold. -/
def wordCount (inWord : Bool) : List UInt8 → Nat
  | [] => 0
  | b :: rest =>
    let space := b = 32 || (9 ≤ b && b ≤ 13)
    (if space ∨ inWord then 0 else 1) + wordCount (!space) rest

/-- A number at the end of at least `width` places. -/
def rightAligned (width n : Nat) : String :=
  let digits := toString n
  String.ofList (List.replicate (width - digits.length) ' ') ++ digits

/-- Counts lines, words and bytes. -/
def wc (s : Setting) : Effect :=
  let (letters, operands) := options s.args
  let asked (letter : Char) : Bool := letters.isEmpty ∨ letters.contains letter
  let count (bytes : List UInt8) : List Nat :=
    (if asked 'l' then [bytes.count Bytes.lineEnd] else [])
      ++ (if asked 'w' then [wordCount false bytes] else [])
      ++ (if asked 'c' ∨ asked 'm' then [bytes.length] else [])
  let row (width : Nat) (counts : List Nat) (name : String) : String :=
    String.intercalate " " (counts.map (rightAligned width)) ++ name ++ "\n"
  match operands with
  | [] =>
    let counts := count s.input.toList
    { printingText s (row (if counts.length = 1 then 1 else 7) counts "") with input := .empty }
  | names =>
    let contents := names.filterMap fun name => (content s name).toOption
    let total := contents.foldl (fun n bytes => n + bytes.size) 0
    let columns := (count []).length
    let width := if columns = 1 ∧ names.length = 1 then 1 else (toString total).length
    let rows := each s names fun s name =>
      match content s name with
      | .ok bytes => printingText s (row width (count bytes.toList) (" " ++ name))
      | .error fault => complaint s 1 (namedFault name fault)
    if names.length = 1 then rows
    else
      let sums := contents.foldl (fun sums bytes => List.zipWith (· + ·) sums (count bytes.toList))
        (List.replicate columns 0)
      { rows with out := rows.out ++ Bytes.ofText (row width sums " total") }

/-! ## Lines -/

/-- Whether a row of bytes occurs in another. -/
def occurs (pattern : List UInt8) : List UInt8 → Bool
  | [] => pattern.isEmpty
  | b :: rest => pattern.isPrefixOf (b :: rest) || occurs pattern rest

/-- Bytes with small letters of ASCII only. -/
def lowered (bytes : List UInt8) : List UInt8 :=
  bytes.map fun b => if 65 ≤ b ∧ b ≤ 90 then b + 32 else b

/-- Prints the lines that hold a text, which may be bound to the beginning or the end of a line. -/
def grep (s : Setting) : Effect :=
  let (letters, operands) := options s.args
  match operands with
  | [] => ending { s with input := s.input } 2
  | pattern :: names =>
    let fold (bytes : List UInt8) : List UInt8 :=
      if letters.contains 'i' then lowered bytes else bytes
    let atStart := pattern.startsWith "^" || letters.contains 'x'
    let atEnd := pattern.endsWith "$" || letters.contains 'x'
    let cs := pattern.toList.drop (if pattern.startsWith "^" then 1 else 0)
    let cs := if pattern.endsWith "$" then cs.dropLast else cs
    let bytes := fold (Text.Utf8.encode (String.ofList cs))
    let isHit (line : List UInt8) : Bool :=
      let line := fold line
      (match atStart, atEnd with
        | true, true => line = bytes
        | true, false => bytes.isPrefixOf line
        | false, true => bytes.isSuffixOf line
        | false, false => occurs bytes line) != letters.contains 'v'
    let single := names.length ≤ 1
    let names := if names.isEmpty then ["-"] else names
    let read := names.map fun name => (name, content s name)
    let found := read.filterMap fun r => r.2.toOption.map fun bytes =>
      let lines := (Bytes.lines bytes.toList).map fun l => l.filter (· ≠ Bytes.lineEnd)
      (r.1, lines.zipIdx.filter fun l => isHit l.1)
    let faults := read.filterMap fun r =>
      match r.2 with
      | .ok _ => none
      | .error fault => some (s.called ++ ": " ++ namedFault r.1 fault ++ "\n")
    let label (name : String) : List UInt8 :=
      if single then [] else Text.Utf8.encode (name ++ ":")
    let out := if letters.contains 'q' then []
      else found.flatMap fun (name, hits) =>
        if letters.contains 'l' then
          if hits.isEmpty then [] else Text.Utf8.encode (name ++ "\n")
        else if letters.contains 'c' then
          label name ++ Text.Utf8.encode (toString hits.length ++ "\n")
        else hits.flatMap fun (line, n) =>
          let number := if letters.contains 'n' then toString (n + 1) ++ ":" else ""
          label name ++ Text.Utf8.encode number ++ line ++ [Bytes.lineEnd]
    { status := if !faults.isEmpty then 2 else if found.all (·.2.isEmpty) then 1 else 0
      out := Bytes.ofList out
      err := Bytes.ofText (String.join faults)
      files := s.files }

/-- The lines of all operands, without their ends. -/
def allLines (s : Setting) (operands : List String) : List (List UInt8) :=
  (if operands.isEmpty then ["-"] else operands).flatMap fun name =>
    match content s name with
    | .ok bytes => (Bytes.lines bytes.toList).map fun l => l.filter (· ≠ Bytes.lineEnd)
    | .error _ => []

def printingLines (s : Setting) (operands : List String) (lines : List (List UInt8)) : Effect :=
  { printing s (Bytes.ofList (lines.flatMap fun l => l ++ [Bytes.lineEnd])) with
    input := if operands.isEmpty ∨ operands.contains "-" then .empty else s.input }

/-- The number that a line begins with; zero if it begins with none. -/
def leadingNumber (line : List UInt8) : Int :=
  let cs := (Text.Utf8.decodeLenient line).dropWhile (· = ' ')
  let (negative, cs) := match cs with
    | '-' :: cs => (true, cs)
    | cs => (false, cs)
  let n : Int := ((Test.natural? (cs.takeWhile Char.isDigit)).getD 0 : Nat)
  if negative then -n else n

/-- Prints lines in the order of their bytes, or of the numbers they begin with. -/
def sort (s : Setting) : Effect :=
  let (letters, operands) := options s.args
  match operands.filterMap fun name => (match content s name with
    | .ok _ => none
    | .error fault => some (name, fault)) with
  | (name, fault) :: _ => complaint s 2 ("cannot read: " ++ namedFault name fault)
  | [] =>
    let lines := allLines s operands
    let bytewise := lines.mergeSort fun a b => decide (a ≤ b)
    let sorted := if letters.contains 'n' then
      bytewise.mergeSort fun a b => decide (leadingNumber a ≤ leadingNumber b) else bytewise
    let sorted := if letters.contains 'u' then sorted.eraseReps else sorted
    printingLines s operands (if letters.contains 'r' then sorted.reverse else sorted)

/-- Puts equal neighbours together, with their number. -/
def runs : List (List UInt8) → List (List UInt8 × Nat)
  | [] => []
  | line :: rest =>
    match runs rest with
    | (next, n) :: more =>
      if line = next then (next, n + 1) :: more else (line, 1) :: (next, n) :: more
    | [] => [(line, 1)]

/-- Prints lines, but of equal neighbours only one. -/
def uniq (s : Setting) : Effect :=
  let (letters, operands) := options s.args
  printingLines s operands ((runs (allLines s operands)).map fun (line, n) =>
    if letters.contains 'c' then Text.Utf8.encode (rightAligned 7 n ++ " ") ++ line else line)

/-- Reads positions such as `2`, `1-3`, `2-` or `1,3` and tells which they are. -/
def positions (text : String) (n : Nat) : Bool :=
  (text.splitOn ",").any fun range =>
    match range.splitOn "-" with
    | [only] => only.toNat? = some n
    | [first, last] =>
      first.toNat?.getD 1 ≤ n && (last.toNat?.map fun l => decide (n ≤ l)).getD true
    | _ => false

/-- The value of an option, which follows its letter or is the next argument, and what is left. -/
def optionValue (letter : Char) : List String → Option String × List String
  | [] => (none, [])
  | a :: rest =>
    if a = "-" ++ letter.toString then (rest.head?, rest.tail)
    else if a.startsWith ("-" ++ letter.toString) then (some (a.drop 2).toString, rest)
    else
      let (found, rest) := optionValue letter rest
      (found, a :: rest)

def splitAtByte (b : UInt8) : List UInt8 → List (List UInt8)
  | [] => [[]]
  | x :: rest =>
    if x = b then [] :: splitAtByte b rest
    else
      match splitAtByte b rest with
      | first :: more => (x :: first) :: more
      | [] => [[x]]

/-- Prints chosen bytes or fields of each line. -/
def cut (s : Setting) : Effect :=
  let (bytes, args) := optionValue 'c' s.args
  let (fields, args) := optionValue 'f' args
  let (delimiter, operands) := optionValue 'd' args
  let mark := (Text.Utf8.encode (delimiter.getD "\t")).headD 9
  let chosen (line : List UInt8) : List UInt8 :=
    match bytes, fields with
    | some p, _ => (line.zipIdx.filter fun b => positions p (b.2 + 1)).map (·.1)
    | none, some p =>
      if line.contains mark then
        ((((splitAtByte mark line).zipIdx.filter fun f => positions p (f.2 + 1)).map
          (·.1)).intersperse [mark]).flatten
      else line
    | none, none => line
  printingLines s operands ((allLines s operands).map chosen)

/-! ## Bytes -/

/-- The bytes that a set names: single ones, ranges such as `a-z`, and escapes. -/
def byteSet : Nat → List Char → List UInt8
  | 0, _ => []
  | _ + 1, [] => []
  | fuel + 1, '\\' :: rest =>
    match Bytes.escape .format rest with
    | .byte b n => b :: byteSet fuel (rest.drop n)
    | _ => byteSet fuel rest
  | fuel + 1, a :: '-' :: b :: rest =>
    ((List.range (b.toNat + 1)).drop a.toNat).map UInt8.ofNat ++ byteSet fuel rest
  | fuel + 1, c :: rest => Text.Utf8.encode c.toString ++ byteSet fuel rest

/-- Replaces bytes, deletes them, or keeps only one of equal neighbours. -/
def tr (s : Setting) : Effect :=
  let (letters, operands) := options s.args
  let set (text : String) : List UInt8 := byteSet (text.length + 1) text.toList
  let first := set (operands.headD "")
  let second := set ((operands.drop 1).headD "")
  let isMember (b : UInt8) : Bool := first.contains b != letters.contains 'c'
  let bytes := s.input.toList
  let bytes :=
    if letters.contains 'd' then bytes.filter (!isMember ·)
    else if second.isEmpty then bytes
    else bytes.map fun b =>
      if !isMember b then b
      else if letters.contains 'c' then second.getLastD b
      else second.getD (first.idxOf b) (second.getLastD b)
  let squeezed := if second.isEmpty then first else second
  let squeeze (b : UInt8) (rest : List UInt8) : List UInt8 :=
    if squeezed.contains b ∧ rest.head? = some b then rest else b :: rest
  let bytes := if letters.contains 's' then bytes.foldr squeeze [] else bytes
  { printing s (Bytes.ofList bytes) with input := .empty }

/-- The position of the first difference of two rows of bytes, with the number of its line. -/
def difference? : Nat → Nat → List UInt8 → List UInt8 → Option (Option (Nat × Nat))
  | _, _, [], [] => none
  | n, line, a :: as, b :: bs =>
    if a = b then difference? (n + 1) (if a = Bytes.lineEnd then line + 1 else line) as bs
    else some (some (n, line))
  | _, _, _, _ => some none

/-- Compares two files. -/
def cmp (s : Setting) : Effect :=
  let (letters, operands) := options s.args
  let a := operands.headD ""
  let b := (operands.drop 1).headD "-"
  match content s a, content s b with
  | .error fault, _ => complaint s 2 (namedFault a fault)
  | _, .error fault => complaint s 2 (namedFault b fault)
  | .ok x, .ok y =>
    match difference? 1 1 x.toList y.toList with
    | none => ending s 0
    | some place =>
      if letters.contains 's' then ending s 1
      else
        match place with
        | some (n, line) =>
          { printingText s (a ++ " " ++ b ++ " differ: char " ++ toString n ++ ", line "
              ++ toString line ++ "\n") with status := 1 }
        | none =>
          let short := if x.size < y.size then a else b
          complaint s 1 ("EOF on " ++ short)

end CoverageMatrix.Shell.Programs
