import CoverageMatrix.Data.Decode
import CoverageMatrix.Json.Numbers
import CoverageMatrix.Json.Strings

/-!
Reading JSON. The reader works on the characters that remain; each step gives a fragment and, if the
text can be read on, what follows it. Tables keep all entries in document order, repeated keys
included.

Lists and objects below a limit of nesting are not read but only passed over. That is enough,
because no reader accepts them.
-/
namespace CoverageMatrix.Json

/-- What a step gives: a fragment and what follows it, unless the text cannot be read on. -/
abbrev Step := Fragment × Option (List Char)

/-- A step at which the text cannot be read on. -/
def stopped (beginning : Beginning) (fault : Malformed) : Step :=
  (.broken beginning fault (some fault), none)

def isSpace (c : Char) : Bool :=
  c = ' ' || c = '\n' || c = '\t' || c = '\r'

def skipSpace (cs : List Char) : List Char :=
  cs.dropWhile isSpace

/-! ## Scalars -/

def word (beginning : Beginning) (x : Fragment) : List Char → List Char → Step
  | [], rest => (x, some rest)
  | _ :: _, [] => stopped beginning .endInValue
  | e :: es, c :: rest =>
    if e = c then word beginning x es rest else stopped beginning .expectedIdent

/-- Reads a string after its opening quote. -/
def text (fuel : Nat) (cs : List Char) : Step :=
  let s := string fuel cs
  match s.content, s.rest with
  | .ok content, .ok rest => (.text content, some rest)
  | .error fault, .ok rest => (.broken .text fault none, some rest)
  | .error fault, .error stop => (.broken .text fault (some stop), none)
  | .ok _, .error stop => stopped .text stop

/-- Reads a value that is neither a list nor an object; `fuel` bounds the length of a string. -/
def scalar (fuel : Nat) (cs : List Char) : Step :=
  match cs with
  | [] => stopped .nothing .endInValue
  | '"' :: rest => text fuel rest
  | 'n' :: rest => word .null .null ['u', 'l', 'l'] rest
  | 't' :: rest => word .word (.bool true) ['r', 'u', 'e'] rest
  | 'f' :: rest => word .word (.bool false) ['a', 'l', 's', 'e'] rest
  | '-' :: rest => number true rest
  | c :: rest =>
    if c.isDigit then number false (c :: rest) else stopped .nothing .expectedValue

/-! ## Passing over -/

/-- What is expected next while a value is passed over. -/
inductive Awaited where
  | value
  /-- The first item or entry of what was just opened, or its end. -/
  | first
  /-- A further item or entry. -/
  | another
  /-- A comma or an end. -/
  | separator

/-- Something that was opened and has to be closed. -/
inductive Opened where
  | list
  | table
deriving DecidableEq

/-- Passes over a value of any depth; gives what follows it. `opened` is what has yet to be closed,
the innermost first. -/
def passOver : Nat → Awaited → List Opened → List Char → Except Malformed (List Char)
  | 0, _, _, _ => .error .endInValue
  | fuel + 1, awaited, opened, cs =>
    match awaited, opened, skipSpace cs with
    | .value, opened, '[' :: rest => passOver fuel .first (.list :: opened) rest
    | .value, opened, '{' :: rest => passOver fuel .first (.table :: opened) rest
    | .value, opened, cs =>
      match scalar fuel cs with
      | (_, some rest) => passOver fuel .separator opened rest
      | (x, none) => .error (x.skip?.getD .expectedValue)
    | _, [], _ => .ok cs
    | .another, .list :: outer, cs => passOver fuel .value (.list :: outer) cs
    | .another, .table :: outer, '"' :: rest => do
      match skipSpace (← (string fuel rest).rest) with
      | ':' :: rest => passOver fuel .value (.table :: outer) rest
      | [] => throw .endInObject
      | _ => throw .expectedColon
    | .another, .table :: _, [] => .error .endInObject
    | .another, .table :: _, _ => .error .keyNotText
    | _, .list :: outer, ']' :: rest => passOver fuel .separator outer rest
    | _, .table :: outer, '}' :: rest => passOver fuel .separator outer rest
    | _, .list :: _, [] => .error .endInList
    | _, .table :: _, [] => .error .endInObject
    | .separator, o :: outer, ',' :: rest => passOver fuel .another (o :: outer) rest
    | .separator, .list :: _, _ => .error .expectedListSeparator
    | .separator, .table :: _, _ => .error .expectedObjectSeparator
    | .first, o :: outer, cs => passOver fuel .another (o :: outer) cs

/-- A list or an object that is nested too deep; `cs` begins with it. -/
def tooDeep (beginning : Beginning) (cs : List Char) : Step :=
  match passOver (4 * cs.length + 4) .value [] cs with
  | .ok rest => (.broken beginning .tooDeep none, some rest)
  | .error fault => (.broken beginning .tooDeep (some fault), none)

/-! ## Values -/

mutual
/-- Reads a value; lists and objects may be nested `depth` deep. -/
def value : Nat → Nat → List Char → Step
  | 0, _, _ => stopped .nothing .endInValue
  | fuel + 1, depth, cs =>
    match skipSpace cs with
    | '[' :: rest =>
      match depth with
      | 0 => tooDeep .list ('[' :: rest)
      | depth + 1 =>
        match skipSpace rest with
        | [] => (.list [] .cut, none)
        | ']' :: after => (.list [] .closed, some after)
        | rest => items fuel depth [] rest
    | '{' :: rest =>
      match depth with
      | 0 => tooDeep .table ('{' :: rest)
      | depth + 1 =>
        match skipSpace rest with
        | [] => (.table [] .cut, none)
        | '}' :: after => (.table [] .closed, some after)
        | rest => entries fuel depth [] rest
    | cs => scalar fuel cs

/-- Reads an item of a list and all that follow it. Those before it are given in reverse. -/
def items : Nat → Nat → List Fragment → List Char → Step
  | 0, _, before, _ => (.list before.reverse .cut, none)
  | fuel + 1, depth, before, cs =>
    match value fuel depth cs with
    | (x, none) => (.list (x :: before).reverse .cut, none)
    | (x, some rest) =>
      match skipSpace rest with
      | [] => (.list (x :: before).reverse .cut, none)
      | ']' :: after => (.list (x :: before).reverse .closed, some after)
      | ',' :: more =>
        match skipSpace more with
        | [] => (.list (x :: before).reverse .cutAfterComma, none)
        | ']' :: _ => (.list (x :: before).reverse .comma, none)
        | more => items fuel depth (x :: before) more
      | _ => (.list (x :: before).reverse .noSeparator, none)

/-- Reads an entry of an object and all that follow it. Those before it are given in reverse. -/
def entries : Nat → Nat → List (Key × Fragment) → List Char → Step
  | 0, _, before, _ => (.table before.reverse .cut, none)
  | fuel + 1, depth, before, cs =>
    match skipSpace cs with
    | '"' :: rest =>
      let k := string fuel rest
      match k.rest with
      | .error fault =>
        let x := (⟨k.content, some fault⟩, .broken .nothing fault (some fault))
        (.table (x :: before).reverse .cut, none)
      | .ok rest =>
        let key : Key := ⟨k.content, none⟩
        let (x, rest) := match skipSpace rest with
          | [] => stopped .nothing .endInObject
          | ':' :: rest => value fuel depth rest
          | _ => stopped .nothing .expectedColon
        match rest with
        | none => (.table ((key, x) :: before).reverse .cut, none)
        | some rest =>
          match skipSpace rest with
          | [] => (.table ((key, x) :: before).reverse .cut, none)
          | '}' :: after => (.table ((key, x) :: before).reverse .closed, some after)
          | ',' :: more =>
            match skipSpace more with
            | [] => (.table ((key, x) :: before).reverse .cutAfterComma, none)
            | '}' :: _ => (.table ((key, x) :: before).reverse .comma, none)
            | more => entries fuel depth ((key, x) :: before) more
          | _ => (.table ((key, x) :: before).reverse .noSeparator, none)
    | _ => (.table before.reverse .noKey, none)
end

/-- How deep lists and objects may be nested. -/
def depthLimit : Nat := 127

/-! ## Whole texts -/

/-- Reads a whole text as one value of a type. -/
def decode {α : Type} (reader : Fragment → Decode.Result α) (text : String) : Decode.Result α := do
  let cs := text.toList
  let (x, rest) := value (2 * cs.length + 2) depthLimit cs
  let a ← reader x
  if (skipSpace (rest.getD [])).isEmpty then pure a else throw (.malformed .trailingCharacters)

def parse (text : String) : Decode.Result Data :=
  decode (fun x => x.toData.mapError .malformed) text

end CoverageMatrix.Json
