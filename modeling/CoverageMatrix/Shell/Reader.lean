import CoverageMatrix.Shell.Token

/-!
Reading scripts of the shell, a line at a time: a line is run before the next one is read, so that a
flaw does not keep what stands before it from running. Commands are read with one sign in advance; a
reader says what it read and which sign follows, or which flaw it met.
-/
namespace CoverageMatrix.Shell.Reader

/-! ## Characters -/

/-- Space inside a line. -/
def isBlank (c : Char) : Bool :=
  c = ' ' || c = '\t'

def endsWord (c : Char) : Bool :=
  isBlank c || c ∈ ['\n', ';', '&', '|', '<', '>', '(', ')']

def beginsName (c : Char) : Bool :=
  c.isAlpha || c = '_'

def isNameChar (c : Char) : Bool :=
  c.isAlphanum || c = '_'

/-- Parameters that are named by one sign. -/
def isSpecial (c : Char) : Bool :=
  c.isDigit || c ∈ ['@', '*', '#', '?', '-', '$', '!']

/-- Passes over space, joined lines, and a comment up to the end of its line. -/
def skipBlanks (inComment : Bool) : List Char → List Char
  | [] => []
  | '\n' :: rest => '\n' :: rest
  | '\\' :: '\n' :: rest => if inComment then '\n' :: rest else skipBlanks false rest
  | c :: rest =>
    if inComment then skipBlanks true rest
    else if isBlank c then skipBlanks false rest
    else if c = '#' then skipBlanks true rest
    else c :: rest

/-- What stands where the lines of a document were taken out, so that lines can still be counted. -/
def takenMark : Char := '\x00'

def skipTaken : List Char → List Char
  | c :: '\n' :: rest => if c = takenMark then skipTaken rest else c :: '\n' :: rest
  | [c] => if c = takenMark then [] else [c]
  | cs => cs

/-- Passes over space, line breaks and comments. -/
def skipLines (inComment : Bool) : List Char → List Char
  | [] => []
  | '\n' :: rest => skipLines false rest
  | '\\' :: '\n' :: rest => skipLines false rest
  | c :: rest =>
    if inComment then skipLines true rest
    else if isBlank c ∨ c = takenMark then skipLines false rest
    else if c = '#' then skipLines true rest
    else c :: rest

def untilQuote (q : Char) : List Char → Option (List Char × List Char)
  | [] => none
  | c :: rest =>
    if c = q then some ([], rest) else (untilQuote q rest).map fun (cs, rest) => (c :: cs, rest)

/-- The characters up to a closing back quote; a backslash takes away the meaning of the next, and
between quotes also that of a quote. -/
def untilBackQuote (quoted : Bool) : List Char → Option (List Char × List Char)
  | [] => none
  | '\x60' :: rest => some ([], rest)
  | '\\' :: '\n' :: rest => untilBackQuote quoted rest
  | '\\' :: c :: rest =>
    (untilBackQuote quoted rest).map fun (cs, rest) =>
      (if c ∈ ['\x60', '\\', '$'] ∨ quoted ∧ c = '"' then c :: cs else '\\' :: c :: cs, rest)
  | c :: rest => (untilBackQuote quoted rest).map fun (cs, rest) => (c :: cs, rest)

/-- Whether an unquoted character begins something other than plain text. -/
def isActive (inBraces : Bool) (c : Char) : Bool :=
  c ∈ ['\\', '\'', '"', '$', '\x60'] || (if inBraces then c = '}' else endsWord c)

def fallback? (c : Char) : Option Fallback :=
  match c with
  | '-' => some .useWord
  | '=' => some .assign
  | '+' => some .alternative
  | '?' => some .failure
  | _ => none

/-- What stands between braces, before what is done to it. -/
inductive Braced where
  | named (name : String)
  /-- The size of a parameter is asked for; nothing may follow. -/
  | sized (name : String)
  | illFormed

def braced (cs : List Char) : Braced × List Char :=
  let named (cs : List Char) : Option (String × List Char) :=
    match cs with
    | c :: _ =>
      if beginsName c then
        some (String.ofList (cs.takeWhile isNameChar), cs.dropWhile isNameChar)
      else if c.isDigit then
        some (String.ofList (cs.takeWhile Char.isDigit), cs.dropWhile Char.isDigit)
      else none
    | [] => none
  match named cs, cs with
  | some (n, rest), _ => (.named n, rest)
  | none, '#' :: rest =>
    match named rest, rest with
    | some (n, after), _ => (.sized n, after)
    | none, '}' :: _ => (.named "#", rest)
    | none, c :: '}' :: after =>
      (if isSpecial c then .sized c.toString else .illFormed, '}' :: after)
    | none, _ => (.named "#", rest)
  | none, '}' :: _ => (.illFormed, cs)
  | none, c :: rest => (if isSpecial c then .named c.toString else .illFormed, rest)
  | none, [] => (.illFormed, [])

/-! ## Documents -/

/-- The lines of a text, each with the line break that ends it. -/
def textLines : List Char → List (List Char)
  | [] => []
  | '\n' :: rest => ['\n'] :: textLines rest
  | c :: rest =>
    match textLines rest with
    | [] => [[c]]
    | line :: lines => (c :: line) :: lines

/-- Splits the text of a document from the lines that follow its delimiter. -/
def documentLines (delimiter : List Char) (stripTabs : Bool) :
    List (List Char) → List Char × List (List Char)
  | [] => ([], [])
  | line :: rest =>
    let line := if stripTabs then line.dropWhile (· = '\t') else line
    if line = delimiter ∨ line = delimiter ++ ['\n'] then ([], rest)
    else
      let (text, rest) := documentLines delimiter stripTabs rest
      (line ++ text, rest)

/-- Takes the document that begins on the next line: its text, and the characters without it. -/
def takeDocument (delimiter : List Char) (stripTabs : Bool) (cs : List Char) :
    List Char × List Char :=
  match cs.dropWhile (· ≠ '\n') with
  | [] => ([], cs)
  | _ :: below =>
    let lines := textLines below
    let (text, rest) :=
      documentLines delimiter stripTabs (lines.dropWhile (· = [takenMark, '\n']))
    let marks := (lines.take (lines.length - rest.length)).flatMap fun line =>
      takenMark :: line.filter (· = '\n')
    (text, cs.takeWhile (· ≠ '\n') ++ '\n' :: marks ++ rest.flatten)

def plainText (w : Word) : List Char :=
  w.flatMap fun
    | .text cs _ => cs
    | _ => []

/-- Whether some part of a word is quoted. -/
def hasQuotes (w : Word) : Bool :=
  w.any fun
    | .text _ quoted => quoted
    | _ => false

/-- The line on which the text that remains begins, if the whole text has so many line breaks. -/
def lineOf (breaks : Nat) (cs : List Char) : Nat :=
  breaks - cs.count '\n' + 1

/-! ## Signs -/

/-- A sign, and the characters behind it. -/
structure Ahead where
  token : Token
  rest : List Char

/-- The sign where a keyword may stand. -/
def Ahead.atBeginning (a : Ahead) : Ahead :=
  { a with token := a.token.atBeginning }

/-- Refuses a sign; `expected` is the one that should stand there, if there is only one. -/
def refuse {α : Type} (breaks : Nat) (a : Ahead) (expected : Option Token) : Except Flaw α :=
  .error ⟨lineOf breaks a.rest, .unexpected a.token expected⟩

/-- What follows a certain sign. -/
def behind (breaks : Nat) (text : String) (a : Ahead) : Except Flaw (List Char) :=
  if a.token.isText text then .ok a.rest else refuse breaks a (some (.sign text))

/-- The redirection that is asked for, behind the descriptor that it names. -/
def direction? (cs : List Char) : Option (Direction × List Char) :=
  match cs with
  | '>' :: '>' :: rest => some (.append, rest)
  | '>' :: '&' :: rest => some (.duplicate, rest)
  | '>' :: '|' :: rest => some (.output, rest)
  | '>' :: rest => some (.output, rest)
  | '<' :: '<' :: '-' :: rest => some (.document true, rest)
  | '<' :: '<' :: rest => some (.document false, rest)
  | '<' :: '&' :: rest => some (.inputOf, rest)
  | '<' :: '>' :: rest => some (.inputNew, rest)
  | '<' :: rest => some (.input, rest)
  | _ => none

/-- The sign at the beginning, unless a word stands there. -/
def sign? (cs : List Char) : Option Ahead :=
  match cs with
  | [] => some ⟨.ending, []⟩
  | '\n' :: rest => some ⟨.newline, skipTaken rest⟩
  | '&' :: '&' :: rest => some ⟨.sign "&&", rest⟩
  | '&' :: rest => some ⟨.sign "&", rest⟩
  | '|' :: '|' :: rest => some ⟨.sign "||", rest⟩
  | '|' :: rest => some ⟨.sign "|", rest⟩
  | ';' :: ';' :: rest => some ⟨.sign ";;", rest⟩
  | ';' :: rest => some ⟨.sign ";", rest⟩
  | '(' :: rest => some ⟨.sign "(", rest⟩
  | ')' :: rest => some ⟨.sign ")", rest⟩
  | c :: rest =>
    let (descriptor, behind) := if c.isDigit then (some (c.toNat - '0'.toNat), rest)
      else (none, c :: rest)
    (direction? behind).map fun (direction, rest) => ⟨.redirection descriptor direction, rest⟩

/-- The variable and the value of a word that is an assignment. -/
def assignment? (w : Word) : Option (String × Word) :=
  match w with
  | .text (c :: cs) false :: parts =>
    match (c :: cs).dropWhile isNameChar with
    | '=' :: value =>
      if beginsName c then
        some (String.ofList ((c :: cs).takeWhile isNameChar),
          if value.isEmpty then parts else .text value false :: parts)
      else none
    | _ => none
  | _ => none

/-- What a sign counts as where any word may stand. -/
def patternOf : Token → Word
  | .word w => w
  | .sign s | .keyword s => [.text s.toList true]
  | _ => []

structure Pieces where
  assignments : List (String × Word) := []
  words : List Word := []
  redirects : List Redirect := []

/-- Whether what is read stands between quotes. A document counts as quoted, but quotes mean nothing
there. -/
inductive Around where
  | nothing
  | quotes
  | document
deriving DecidableEq

/-- Whether results are not split into fields. -/
def Around.isQuoted (around : Around) : Bool :=
  around ≠ .nothing

inductive Closing where
  | quote
  /-- At the end of the text. -/
  | whole
  /-- At a brace that is not between quotes of its own. -/
  | brace (inner : Bool)
  /-- At two closing brackets, after so many that have been opened. -/
  | brackets (depth : Nat)

/-- What is wrong if the text ends before quoted parts do. -/
def Closing.problem (around : Around) : Closing → Problem
  | quote => .openQuote
  | brackets _ => .openBrackets
  | brace _ | whole => if around = .document then .openBraces else .openQuote

/-- The characters whose meaning a backslash takes away; before all others it stays. -/
def Closing.escaped (around : Around) : Closing → List Char
  | brace _ => ['$', '\x60', '\\', '"', '}']
  | _ => ['$', '\x60', '\\'] ++ if around = .document then [] else ['"']

/-! ## Words and commands -/

mutual
/-- Reads the parts of a word up to its end, or up to a closing brace and past it. -/
def parts (breaks : Nat) : Nat → Bool → List Char → Except Flaw (Word × List Char)
  | 0, _, cs => refuse breaks ⟨.ending, cs⟩ none
  | fuel + 1, inBraces, cs =>
    match cs with
    | [] => if inBraces then throw ⟨lineOf breaks [], .openBraces⟩ else return ([], [])
    | '\\' :: '\n' :: rest => parts breaks fuel inBraces rest
    | '\\' :: c :: rest => do
      let (ps, rest) ← parts breaks fuel inBraces rest
      return (.text [c] true :: ps, rest)
    | '\'' :: rest => do
      let some (body, rest) := untilQuote '\'' rest | throw ⟨lineOf breaks [], .openQuote⟩
      let (ps, rest) ← parts breaks fuel inBraces rest
      return (.text body true :: ps, rest)
    | '"' :: rest => do
      let (body, rest) ← quoted breaks fuel .quotes .quote rest
      let (ps, rest) ← parts breaks fuel inBraces rest
      return (.text [] true :: body ++ ps, rest)
    | '$' :: rest => do
      let (p, rest) ← dollar breaks fuel .nothing rest
      let (ps, rest) ← parts breaks fuel inBraces rest
      return (p :: ps, rest)
    | '\x60' :: rest => do
      let (p, rest) ← backQuoted breaks fuel false rest
      let (ps, rest) ← parts breaks fuel inBraces rest
      return (p :: ps, rest)
    | c :: rest =>
      if inBraces && c = '}' then return ([], rest)
      else if !inBraces && endsWord c then return ([], c :: rest)
      else do
        let plain := c :: rest.takeWhile (!isActive inBraces ·)
        let (ps, rest) ← parts breaks fuel inBraces (rest.dropWhile (!isActive inBraces ·))
        return (.text plain false :: ps, rest)

/-- Reads quoted parts up to where they end, and past that. -/
def quoted (breaks : Nat) : Nat → Around → Closing → List Char → Except Flaw (Word × List Char)
  | 0, _, _, cs => refuse breaks ⟨.ending, cs⟩ none
  | fuel + 1, around, closing, cs =>
    let followed (part : Part) (closing : Closing) (rest : List Char) :
        Except Flaw (Word × List Char) := do
      let (ps, rest) ← quoted breaks fuel around closing rest
      return (part :: ps, rest)
    match cs, closing with
    | [], .whole => return ([], [])
    | [], closing => throw ⟨lineOf breaks [], closing.problem around⟩
    | '"' :: rest, .quote => return ([], rest)
    | '"' :: rest, .brace inner => followed (.text [] true) (.brace !inner) rest
    | '}' :: rest, .brace false => return ([], rest)
    | ')' :: ')' :: rest, .brackets 0 => return ([], rest)
    | '(' :: rest, .brackets depth => followed (.text ['('] true) (.brackets (depth + 1)) rest
    | ')' :: rest, .brackets depth => followed (.text [')'] true) (.brackets (depth - 1)) rest
    | '\\' :: '\n' :: rest, closing => quoted breaks fuel around closing rest
    | '\\' :: c :: rest, closing =>
      let cs := if c ∈ closing.escaped around then [c] else ['\\', c]
      followed (.text cs true) closing rest
    | '$' :: rest, closing => do
      let (p, rest) ← dollar breaks fuel around rest
      followed p closing rest
    | '\x60' :: rest, closing => do
      let (p, rest) ← backQuoted breaks fuel true rest
      followed p closing rest
    | c :: rest, closing =>
      let isText (c : Char) : Bool := c ∉ ['"', '\\', '$', '\x60', '}', '(', ')']
      followed (.text (c :: rest.takeWhile isText) true) closing (rest.dropWhile isText)

/-- Reads a command up to a back quote. It is a script of its own, with lines of its own. -/
def backQuoted (breaks : Nat) : Nat → Bool → List Char → Except Flaw (Part × List Char)
  | 0, _, cs => refuse breaks ⟨.ending, cs⟩ none
  | fuel + 1, quoted, cs => do
    let some (body, rest) := untilBackQuote quoted cs | throw ⟨lineOf breaks [], .openBackQuote⟩
    let (c, _) ← list (body.count '\n') fuel false body
    return (.output c quoted, rest)

def dollar (breaks : Nat) : Nat → Around → List Char → Except Flaw (Part × List Char)
  | 0, _, cs => refuse breaks ⟨.ending, cs⟩ none
  | fuel + 1, around, cs =>
    let isQuoted := around.isQuoted
    match cs with
    | '(' :: '(' :: rest => do
      let inside := if around = .document then .document else .quotes
      let (expression, rest) ← quoted breaks fuel inside (.brackets 0) rest
      return (.arithmetic expression isQuoted, rest)
    | '(' :: rest => do
      let (c, a) ← list breaks fuel false rest
      let rest ← behind breaks ")" a
      return (.output c isQuoted, rest)
    | '{' :: rest =>
      match braced rest with
      | (.named n, rest) => afterName breaks fuel around n rest
      | (.sized n, '}' :: rest) => return (.size n, rest)
      | (_, rest) => do
        let (_, rest) ← operand breaks fuel around rest
        return (.illFormed, rest)
    | c :: rest =>
      if beginsName c then
        return (.parameter (String.ofList (c :: rest.takeWhile isNameChar)) isQuoted,
          rest.dropWhile isNameChar)
      else if isSpecial c then return (.parameter c.toString isQuoted, rest)
      else return (.text ['$'] isQuoted, c :: rest)
    | [] => return (.text ['$'] isQuoted, [])

/-- Reads what follows the name of a parameter in braces. -/
def afterName (breaks : Nat) : Nat → Around → String → List Char → Except Flaw (Part × List Char)
  | 0, _, _, cs => refuse breaks ⟨.ending, cs⟩ none
  | fuel + 1, around, n, cs =>
    let isQuoted := around.isQuoted
    let guarded (orEmpty : Bool) (sign : Char) (rest : List Char) :
        Except Flaw (Part × List Char) := do
      let (w, rest) ← operand breaks fuel around rest
      return ((fallback? sign).elim .illFormed fun f => .guarded n f orEmpty w isQuoted, rest)
    let trimmed (trim : Trim) (rest : List Char) : Except Flaw (Part × List Char) := do
      let (w, rest) ← parts breaks fuel true rest
      return (.trimmed n trim w isQuoted, rest)
    match cs with
    | '}' :: rest | ':' :: '}' :: rest => return (.parameter n isQuoted, rest)
    | '%' :: '%' :: rest => trimmed ⟨true, true⟩ rest
    | '%' :: rest => trimmed ⟨true, false⟩ rest
    | '#' :: '#' :: rest => trimmed ⟨false, true⟩ rest
    | '#' :: rest => trimmed ⟨false, false⟩ rest
    | ':' :: sign :: rest => guarded true sign rest
    | sign :: rest => guarded false sign rest
    | [] => guarded false '}' []

/-- Reads the word in braces that stands in for a parameter. -/
def operand (breaks : Nat) : Nat → Around → List Char → Except Flaw (Word × List Char)
  | 0, _, cs => refuse breaks ⟨.ending, cs⟩ none
  | fuel + 1, around, cs =>
    if around.isQuoted then quoted breaks fuel around (.brace false) cs
    else parts breaks fuel true cs

def next (breaks : Nat) : Nat → List Char → Except Flaw Ahead
  | 0, cs => refuse breaks ⟨.ending, cs⟩ none
  | fuel + 1, cs => do
    let cs := skipBlanks false cs
    match sign? cs with
    | some a => return a
    | none =>
      let (w, rest) ← parts breaks fuel false cs
      return ⟨.word w, rest⟩

/-- Reads the next sign where a command may begin, past line breaks. -/
def beginning (breaks : Nat) : Nat → List Char → Except Flaw Ahead
  | 0, cs => refuse breaks ⟨.ending, cs⟩ none
  | fuel + 1, cs => do
    let a ← next breaks fuel (skipLines false cs)
    return a.atBeginning

def target (breaks : Nat) :
    Nat → Option Nat → Direction → List Char → Except Flaw (Redirect × List Char)
  | 0, _, _, cs => refuse breaks ⟨.ending, cs⟩ none
  | fuel + 1, descriptor, direction, cs => do
    let a ← next breaks fuel cs
    let .word w := a.token | refuse breaks a none
    match direction with
    | .input => return (.input w, a.rest)
    | .inputOf => return (.inputOf w, a.rest)
    | .inputNew => return (.inputNew w, a.rest)
    | .output => return (.output (descriptor.getD 1) false w, a.rest)
    | .append => return (.output (descriptor.getD 1) true w, a.rest)
    | .duplicate => return (.duplicate (descriptor.getD 1) w, a.rest)
    | .document stripTabs =>
      let (body, rest) := takeDocument (plainText w) stripTabs a.rest
      if hasQuotes w then return (.document [.text body true], rest)
      else
        let bodyBreaks := lineOf breaks a.rest + body.count '\n'
        let (ps, _) ← quoted bodyBreaks fuel .document .whole body
        return (.document ps, rest)

def redirects (breaks : Nat) : Nat → Ahead → Except Flaw (List Redirect × Ahead)
  | 0, a => refuse breaks a none
  | fuel + 1, a =>
    match a.token with
    | .redirection descriptor direction => do
      let (r, rest) ← target breaks fuel descriptor direction a.rest
      let (rs, a) ← redirects breaks fuel (← next breaks fuel rest)
      return (r :: rs, a)
    | _ => return ([], a)

/-- Reads the pieces of a simple command: assignments, words and redirections in any order, but no
assignment after the first word. -/
def pieces (breaks : Nat) : Nat → Bool → Ahead → Except Flaw (Pieces × Ahead)
  | 0, _, a => refuse breaks a none
  | fuel + 1, hasWord, a =>
    match a.token with
    | .redirection descriptor direction => do
      let (r, rest) ← target breaks fuel descriptor direction a.rest
      let (p, a) ← pieces breaks fuel hasWord (← next breaks fuel rest)
      return ({ p with redirects := r :: p.redirects }, a)
    | .word w =>
      match (if hasWord then none else assignment? w) with
      | some (n, value) => do
        let (p, a) ← pieces breaks fuel false (← next breaks fuel a.rest)
        return ({ p with assignments := (n, value) :: p.assignments }, a)
      | none => do
        let (p, a) ← pieces breaks fuel true (← next breaks fuel a.rest)
        return ({ p with words := w :: p.words }, a)
    | _ => return ({}, a)

/-- Reads a condition after its first word. -/
def branch (breaks : Nat) : Nat → List Char → Except Flaw (Command × List Char)
  | 0, cs => refuse breaks ⟨.ending, cs⟩ none
  | fuel + 1, cs => do
    let (c, a) ← list breaks fuel true cs
    let (t, a) ← list breaks fuel true (← behind breaks "then" a)
    if a.token.isText "elif" then
      let (e, rest) ← branch breaks fuel a.rest
      return (.branch c t e, rest)
    else if a.token.isText "else" then
      let (e, a) ← list breaks fuel true a.rest
      return (.branch c t e, ← behind breaks "fi" a)
    else return (.branch c t .nothing, ← behind breaks "fi" a)

def body (breaks : Nat) : Nat → Ahead → Except Flaw (Command × List Char)
  | 0, a => refuse breaks a none
  | fuel + 1, a => do
    let (c, a) ← list breaks fuel true (← behind breaks "do" a)
    return (c, ← behind breaks "done" a)

/-- Reads the values of a loop up to the end of their line. -/
def values (breaks : Nat) : Nat → List Char → Except Flaw (List Word × List Char)
  | 0, cs => refuse breaks ⟨.ending, cs⟩ none
  | fuel + 1, cs => do
    let a ← next breaks fuel cs
    match a.token with
    | .word w =>
      let (ws, rest) ← values breaks fuel a.rest
      return (w :: ws, rest)
    | .newline | .sign ";" => return ([], a.rest)
    | _ => refuse breaks a none

/-- Reads a loop over values after its first word. -/
def forEach (breaks : Nat) : Nat → List Char → Except Flaw (Command × List Char)
  | 0, cs => refuse breaks ⟨.ending, cs⟩ none
  | fuel + 1, cs => do
    let a ← next breaks fuel cs
    let name := match a.token with
      | .word w => w.bareText?.filter isName
      | _ => none
    let some n := name | throw ⟨lineOf breaks a.rest, .loopName⟩
    let a ← beginning breaks fuel a.rest
    if a.token.isText "in" then
      let (ws, rest) ← values breaks fuel a.rest
      let (c, rest) ← body breaks fuel (← beginning breaks fuel rest)
      return (.forEach n (some ws) c, rest)
    else
      let a ← if a.token.isText ";" then beginning breaks fuel a.rest else pure a
      let (c, rest) ← body breaks fuel a
      return (.forEach n none c, rest)

/-- Reads the patterns of a case, with bars between them, and the closing bracket. -/
def patterns (breaks : Nat) : Nat → Ahead → Except Flaw (List Word × List Char)
  | 0, a => refuse breaks a none
  | fuel + 1, a => do
    let pattern := patternOf a.token
    let b ← next breaks fuel a.rest
    if b.token.isText "|" then
      let (ws, rest) ← patterns breaks fuel (← next breaks fuel b.rest)
      return (pattern :: ws, rest)
    else return ([pattern], ← behind breaks ")" b)

def cases (breaks : Nat) :
    Nat → List Char → Except Flaw (List (List Word × Command) × List Char)
  | 0, cs => refuse breaks ⟨.ending, cs⟩ none
  | fuel + 1, cs => do
    let a ← beginning breaks fuel cs
    if a.token.isText "esac" then return ([], a.rest)
    else
      let a ← if a.token.isText "(" then next breaks fuel a.rest else pure a
      let (ws, rest) ← patterns breaks fuel a
      let (c, a) ← list breaks fuel false rest
      let a := a.atBeginning
      if a.token.isText "esac" then return ([(ws, c)], a.rest)
      else
        let (more, rest) ← cases breaks fuel (← behind breaks ";;" a)
        return ((ws, c) :: more, rest)

/-- Reads a choice after its first word. -/
def choose (breaks : Nat) : Nat → List Char → Except Flaw (Command × List Char)
  | 0, cs => refuse breaks ⟨.ending, cs⟩ none
  | fuel + 1, cs => do
    let a ← next breaks fuel cs
    let .word w := a.token | refuse breaks a (some (.word []))
    let rest ← behind breaks "in" (← beginning breaks fuel a.rest)
    let (cases, rest) ← cases breaks fuel rest
    return (.choose w cases, rest)

/-- Reads a command that a keyword begins, without redirections. -/
def compound (breaks : Nat) : Nat → Ahead → Except Flaw (Command × List Char)
  | 0, a => refuse breaks a none
  | fuel + 1, a =>
    match a.token with
    | .keyword "\x7b" => do
      let (c, b) ← list breaks fuel true a.rest
      return (c, ← behind breaks "\x7d" b)
    | .keyword "if" => branch breaks fuel a.rest
    | .keyword "while" => do
      let (c, b) ← list breaks fuel true a.rest
      let (d, rest) ← body breaks fuel b
      return (.loop false c d, rest)
    | .keyword "until" => do
      let (c, b) ← list breaks fuel true a.rest
      let (d, rest) ← body breaks fuel b
      return (.loop true c d, rest)
    | .keyword "for" => forEach breaks fuel a.rest
    | .keyword "case" => choose breaks fuel a.rest
    | _ => refuse breaks a none

/-- Reads redirections after a group of commands. Behind the group a keyword may stand. -/
def grouped (breaks : Nat) : Nat → Bool → Command → List Char → Except Flaw (Command × Ahead)
  | 0, _, _, cs => refuse breaks ⟨.ending, cs⟩ none
  | fuel + 1, ownShell, c, cs => do
    let a ← next breaks fuel cs
    let (rs, a) ← redirects breaks fuel a.atBeginning
    return (.group ownShell c rs, a)

/-- Reads a command without what pipes it on, from its first sign. -/
def command (breaks : Nat) : Nat → Ahead → Except Flaw (Command × Ahead)
  | 0, a => refuse breaks a none
  | fuel + 1, a =>
    let line := lineOf breaks a.rest
    match a.token with
    | .sign "(" => do
      let (c, b) ← list breaks fuel true a.rest
      grouped breaks fuel true c (← behind breaks ")" b)
    | .redirection _ _ => do
      let (p, a) ← pieces breaks fuel false a
      return (.simple line p.assignments p.words p.redirects, a)
    | .word w => do
      if (assignment? w).isSome then
        let (p, a) ← pieces breaks fuel false a
        return (.simple line p.assignments p.words p.redirects, a)
      else
        let b ← next breaks fuel a.rest
        if b.token.isText "(" then
          let rest ← behind breaks ")" (← next breaks fuel b.rest)
          let isFree (n : String) : Bool := isName n && n ∉ specialCommands
          let some n := w.bareText?.filter isFree | throw ⟨lineOf breaks rest, .functionName⟩
          let (c, a) ← command breaks fuel (← beginning breaks fuel rest)
          return (.function n c, a)
        else
          let (p, a) ← pieces breaks fuel true b
          return (.simple line p.assignments (w :: p.words) p.redirects, a)
    | _ => do
      let (c, rest) ← compound breaks fuel a
      grouped breaks fuel false c rest

def piped (breaks : Nat) : Nat → Ahead → Except Flaw (Command × Ahead)
  | 0, a => refuse breaks a none
  | fuel + 1, a => do
    let (c, a) ← command breaks fuel a
    if a.token.isText "|" then
      let (d, a) ← piped breaks fuel (← beginning breaks fuel a.rest)
      return (.pipe c d, a)
    else return (c, a)

/-- Reads commands with pipes between them, of which the status may be turned round. -/
def pipeline (breaks : Nat) : Nat → Ahead → Except Flaw (Command × Ahead)
  | 0, a => refuse breaks a none
  | fuel + 1, a => do
    if a.token.isText "!" then
      let b ← next breaks fuel a.rest
      let (c, b) ← piped breaks fuel b.atBeginning
      return (.negate c, b)
    else piped breaks fuel a

def joined (breaks : Nat) : Nat → Command → Ahead → Except Flaw (Command × Ahead)
  | 0, _, a => refuse breaks a none
  | fuel + 1, c, a => do
    if a.token.isText "&&" then
      let (d, a) ← pipeline breaks fuel (← beginning breaks fuel a.rest)
      joined breaks fuel (.both c d) a
    else if a.token.isText "||" then
      let (d, a) ← pipeline breaks fuel (← beginning breaks fuel a.rest)
      joined breaks fuel (.either c d) a
    else return (c, a)

/-- Reads a list of commands up to a sign that ends it. A list that is `required` does not begin
with such a sign, unless that is the end of the script. -/
def list (breaks : Nat) : Nat → Bool → List Char → Except Flaw (Command × Ahead)
  | 0, _, cs => refuse breaks ⟨.ending, cs⟩ none
  | fuel + 1, required, cs => do
    let a ← beginning breaks fuel cs
    if a.token.endsList ∧ (¬required ∨ a.token.isEnding) then return (.nothing, a)
    else
      let (c, a) ← pipeline breaks fuel a
      let (c, a) ← joined breaks fuel c a
      match a.token with
      | .newline | .sign ";" =>
        let (d, a) ← list breaks fuel false a.rest
        return (.sequence c d, a)
      | .sign "&" =>
        let (d, a) ← list breaks fuel false a.rest
        return (.sequence (.background c) d, a)
      | _ => return (c, a)

def line (breaks : Nat) : Nat → List Char → Except Flaw (Command × List Char)
  | 0, cs => refuse breaks ⟨.ending, cs⟩ none
  | fuel + 1, cs => do
    let a ← next breaks fuel cs
    match a.token with
    | .newline | .ending => return (.nothing, a.rest)
    | _ =>
      let (c, a) ← pipeline breaks fuel a.atBeginning
      let (c, a) ← joined breaks fuel c a
      match a.token with
      | .newline | .ending => return (c, a.rest)
      | .sign ";" =>
        let (d, rest) ← line breaks fuel a.rest
        return (.sequence c d, rest)
      | .sign "&" =>
        let (d, rest) ← line breaks fuel a.rest
        return (.sequence (.background c) d, rest)
      | _ => refuse breaks a none
end

/-- Reads the next line of a script, of which so many line breaks are all there are. -/
def nextLine (breaks : Nat) (cs : List Char) : Except Flaw (Command × List Char) :=
  line breaks (16 * cs.length + 64) cs

end CoverageMatrix.Shell.Reader
