import CoverageMatrix.Url.Basic
import CoverageMatrix.Url.Host

/-!
Reading addresses. The reader is lenient about spaces, line breaks and slashes; what it gives is the
normal form, in which a path has no `.` and `..`. Some schemes are special: their addresses always
have a path, and a backslash is a slash there. A text without a scheme is no address.
-/
namespace CoverageMatrix.Url

/-! ## Schemes -/

/-- The schemes whose addresses name a server, with the number that each implies behind the host. -/
def impliedNumbers : List (String × Nat) :=
  [("http", 80), ("https", 443), ("ws", 80), ("wss", 443), ("ftp", 21)]

inductive Kind where
  | server (implied : Nat)
  | file
  | other
deriving DecidableEq

def Kind.of (scheme : List Char) : Kind :=
  match impliedNumbers.lookup (String.ofList scheme) with
  | some n => .server n
  | none => if scheme = "file".toList then .file else .other

def Kind.isSpecial (kind : Kind) : Bool :=
  kind ≠ .other

/-- Whether a character separates the names of a path. -/
def Kind.isSlash (kind : Kind) (c : Char) : Bool :=
  c = '/' || (kind.isSpecial && c = '\\')

def endsPath (c : Char) : Bool :=
  c = '?' || c = '#'

/-- Splits off a scheme, in lower case. -/
def scheme? (cs : List Char) : Option (List Char × List Char) :=
  let (scheme, rest) := splitBefore (· = ':') cs
  match scheme, rest with
  | c :: _, _ :: rest =>
    if c.isAlpha ∧ scheme.all fun c => c.isAlphanum || c ∈ ['+', '-', '.'] then
      some (scheme.map Char.toLower, rest)
    else none
  | _, _ => none

/-! ## Paths -/

/-- Whether a name of a path stands for the place itself. -/
def isHere (name : List Char) : Bool :=
  String.ofList name ∈ [".", "%2e", "%2E"]

/-- Whether a name of a path stands for the place above. -/
def isAbove (name : List Char) : Bool :=
  String.ofList (name.map Char.toLower) ∈ ["..", "%2e%2e", ".%2e", "%2e."]

/-- Whether a name of a path is that of a drive. -/
def isDrive (name : List Char) : Bool :=
  match name with
  | [letter, mark] => letter.isAlpha && (mark = ':' || mark = '|')
  | _ => false

/-- The names before the last one; a drive stays. -/
def above (before : List (List Char)) : List (List Char) :=
  match before with
  | [] => []
  | name :: rest => if isDrive name then name :: rest else rest

/-- The names of a path without those that stand for a place. `before` are the names so far, in
reverse. -/
def resolve (kind : Kind) (before : List (List Char)) : List (List Char) → List (List Char)
  | [] => before.reverse
  | name :: rest =>
    let atEnd := if rest.isEmpty then [[]] else []
    if isAbove name then resolve kind (atEnd ++ above before) rest
    else if isHere name then resolve kind (atEnd ++ before) rest
    else
      let name := match name with
        | letter :: _ => if kind = .file ∧ isDrive name then [letter, ':'] else name
        | [] => name
      resolve kind (name :: before) rest

/-- The names of a file's path, where a drive at its beginning is a name of its own. -/
def withDrive (names : List (List Char)) : List (List Char) :=
  match names with
  | (letter :: ':' :: c :: cs) :: rest =>
    if letter.isAlpha then [letter, ':'] :: (c :: cs) :: rest else names
  | names => names

/-- The names of a path that follows its first slash. -/
def pathNames (kind : Kind) (cs : List Char) : List (List Char) :=
  resolve kind [] ((pieces kind.isSlash cs).map (escape inPath))

def pathText (names : List (List Char)) : List Char :=
  '/' :: List.intercalate ['/'] names

def pathBehind (kind : Kind) (cs : List Char) : List Char :=
  match cs with
  | [] => if kind.isSpecial then ['/'] else []
  | c :: rest => pathText (pathNames kind (if kind.isSlash c then rest else c :: rest))

/-! ## Authorities -/

/-- Reads a user: the name up to the first colon, then the password, unless it is empty. -/
def user (cs : List Char) : List Char × Option (List Char) :=
  let (name, rest) := splitBefore (· = ':') cs
  let password := escape inUser (rest.drop 1)
  (escape inUser name, if password.isEmpty then none else some password)

/-- Splits off what stands before the last `@`. -/
def splitUser (cs : List Char) : Option (List Char) × List Char :=
  let reversed := cs.reverse
  if cs.contains '@' then
    (some ((reversed.dropWhile (· ≠ '@')).drop 1).reverse, (reversed.takeWhile (· ≠ '@')).reverse)
  else (none, cs)

/-- Splits a host from what follows a colon behind it; colons between brackets belong to the
host. -/
def splitHost : Bool → List Char → List Char × List Char
  | _, [] => ([], [])
  | inside, c :: rest =>
    if c = ':' ∧ ¬inside then ([], c :: rest)
    else
      let (host, number) := splitHost (c = '[' || (inside && c ≠ ']')) rest
      (c :: host, number)

/-- The number behind a host, if one is written and it is not the implied one. -/
def number? (kind : Kind) (cs : List Char) : Option (Option Nat) :=
  let ds := cs.drop 1
  if ds.isEmpty then some none
  else if ds.all Char.isDigit then
    let n := ofDigits 10 ds
    if 65535 < n then none
    else some (if kind = .server n then none else some n)
  else none

/-- Reads an authority; `isLast` says that nothing follows it. Without a host there may be neither a
number nor a user, and an `@` without a user only where nothing follows it. -/
def authority? (kind : Kind) (isLast : Bool) (cs : List Char) : Option Authority := do
  let (written, rest) := splitUser cs
  let (name, password) := user (written.getD [])
  let (host, number) := splitHost false rest
  if host.isEmpty then
    guard (kind = .other ∧ number.isEmpty ∧ name.isEmpty ∧ password.isNone)
    guard (written ≠ some [] ∨ isLast)
    return { host := [] }
  else
    let host ← if kind.isSpecial then specialHost? host else otherHost? host
    return { user := name, password, host, number := ← number? kind number }

/-! ## Addresses -/

/-- An address from its parts before the query; `cs` is what follows them. -/
def finish (kind : Kind) (scheme : List Char) (authority : Option Authority) (path cs : List Char) :
    Url :=
  let (query, fragment) := splitBefore (· = '#') cs
  { scheme, authority, path
    query := match query with
      | [] => none
      | _ :: query => some (escape (inQuery kind.isSpecial) query)
    fragment := match fragment with
      | [] => none
      | _ :: fragment => some (escape inFragment fragment) }

/-- Reads what follows the slashes of an address with an authority. -/
def ofAuthority? (kind : Kind) (scheme cs : List Char) : Option Url := do
  let (authority, rest) := splitBefore (fun c => kind.isSlash c || endsPath c) cs
  let a ← authority? kind rest.isEmpty authority
  let (path, rest) := splitBefore endsPath rest
  return finish kind scheme (some a) (pathBehind kind path) rest

/-- Reads what follows the scheme of a file's address. -/
def ofFile? (scheme cs : List Char) : Option Url := do
  let kind := Kind.file
  let (body, rest) := splitBefore endsPath cs
  let (host, path) ← match body with
    | a :: b :: more =>
      if kind.isSlash a ∧ kind.isSlash b then do
        let (host, path) := splitBefore kind.isSlash more
        if host.isEmpty ∨ isDrive host then pure (some [], more)
        else
          let host ← specialHost? host
          pure (some (if host = "localhost".toList then [] else host), path)
      else pure (none, body)
    | body => pure (none, body)
  let written := pieces kind.isSlash (if path.head?.any kind.isSlash then path.drop 1 else path)
  let names := resolve kind [] ((if host = some [] then written else withDrive written).map
    (escape inPath))
  let host := if written.any isDrive then [] else host.getD []
  return finish kind scheme (some { host }) (pathText (names.dropWhile List.isEmpty)) rest

def ofOther? (scheme cs : List Char) : Option Url :=
  match cs with
  | '/' :: '/' :: rest => ofAuthority? .other scheme rest
  | '/' :: rest =>
    let (path, rest) := splitBefore endsPath rest
    some (finish .other scheme none (pathText (pathNames .other path)) rest)
  | cs =>
    let (path, rest) := splitBefore endsPath cs
    some (finish .other scheme none (escape isControl path) rest)

/-- Reads an address. Spaces and controls around it do not count, nor do line breaks in it. -/
def ofText? (text : String) : Option Url := do
  let isOuter (c : Char) : Bool := c.toNat ≤ 0x20
  let cs := ((text.toList.dropWhile isOuter).reverse.dropWhile isOuter).reverse
  let cs := cs.filter fun c => c ∉ ['\t', '\n', '\r']
  let (scheme, rest) ← scheme? cs
  match Kind.of scheme with
  | .server n =>
    ofAuthority? (.server n) scheme (rest.dropWhile fun c => c = '/' || c = '\\')
  | .file => ofFile? scheme rest
  | .other => ofOther? scheme rest

end CoverageMatrix.Url
