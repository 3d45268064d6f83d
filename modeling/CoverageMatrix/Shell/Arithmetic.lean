import CoverageMatrix.Text.Hex

/-!
Arithmetic of the shell: whole numbers of 64 bits that wrap around, names of variables, the
operators of the usual precedence and assignments. A text is read as an expression, and an
expression gives its value and the variables that it sets.
-/
namespace CoverageMatrix.Shell.Arithmetic

/-- Why an expression has no value. -/
inductive Problem where
  | expectingPrimary
  | expectingEnd
  | expectingColon
  | divisionByZero
  /-- A variable that does not hold a number. -/
  | illegalNumber (text : String)

def Problem.message (expression : String) : Problem → String
  | expectingPrimary => inside "expecting primary"
  | expectingEnd => inside "expecting EOF"
  | expectingColon => inside "expecting ':'"
  | divisionByZero => inside "division by zero"
  | illegalNumber text => "Illegal number: " ++ text
where
  /-- A problem told with the expression. -/
  inside (text : String) : String :=
    "arithmetic expression: " ++ text ++ ": \"" ++ expression ++ "\""

/-! ## Numbers -/

/-- The base of the number that a text begins with, and the text behind the sign of the base. -/
def baseOf : List Char → Nat × List Char
  | '0' :: 'x' :: d :: rest =>
    if (Text.Hex.value? d).isSome then (16, d :: rest) else (8, '0' :: 'x' :: d :: rest)
  | '0' :: 'X' :: d :: rest =>
    if (Text.Hex.value? d).isSome then (16, d :: rest) else (8, '0' :: 'X' :: d :: rest)
  | '0' :: rest => (8, '0' :: rest)
  | cs => (10, cs)

def digit? (base : Nat) (c : Char) : Option Nat :=
  (Text.Hex.value? c).filter (· < base)

/-- The number that a text begins with, and what follows it. -/
def natural (cs : List Char) : Nat × List Char :=
  let (base, cs) := baseOf cs
  let isDigit (c : Char) : Bool := (digit? base c).isSome
  ((cs.takeWhile isDigit).foldl (fun n d => n * base + (digit? base d).getD 0) 0,
    cs.dropWhile isDigit)

/-- A number of 64 bits; one that is too large gives the largest. -/
def clamp (n : Nat) : Int64 :=
  .ofNat (min n 9223372036854775807)

def number? (text : String) : Option Int64 :=
  let (negative, cs) := match text.toList with
    | '-' :: cs => (true, cs)
    | '+' :: cs => (false, cs)
    | cs => (false, cs)
  match natural cs with
  | (n, []) => some (if negative then -clamp n else clamp n)
  | _ => none

/-! ## Reading -/

inductive Token where
  | number (n : Int64)
  | name (s : String)
  | sign (s : String)
deriving DecidableEq

/-- The signs, longer ones before their beginnings. -/
def signs : List String :=
  ["<<=", ">>=", "&&", "||", "==", "!=", "<=", ">=", "<<", ">>", "+=", "-=", "*=", "/=", "%=", "&=",
   "|=", "^=", "+", "-", "*", "/", "%", "<", ">", "=", "!", "~", "&", "|", "^", "?", ":", "(", ")"]

/-- Splits an expression into tokens. A character that begins none stands for itself. -/
def tokens : Nat → List Char → List Token
  | _, [] => []
  | 0, _ => []
  | fuel + 1, c :: rest =>
    if c = ' ' ∨ c = '\t' ∨ c = '\n' then tokens fuel rest
    else if c.isDigit then
      let (n, rest) := natural (c :: rest)
      .number (clamp n) :: tokens fuel rest
    else if c.isAlpha ∨ c = '_' then
      let isPart (c : Char) : Bool := c.isAlphanum || c = '_'
      .name (String.ofList (c :: rest.takeWhile isPart)) :: tokens fuel (rest.dropWhile isPart)
    else
      match signs.find? fun s => s.toList.isPrefixOf (c :: rest) with
      | some s => .sign s :: tokens fuel ((c :: rest).drop s.length)
      | none => .sign c.toString :: tokens fuel rest

inductive Expr where
  | number (n : Int64)
  | name (s : String)
  | unary (op : String) (a : Expr)
  | binary (op : String) (a b : Expr)
  | choice (c a b : Expr)
  /-- Sets a variable, to what an operator makes of its old value if there is one. -/
  | assign (name : String) (op : Option String) (a : Expr)

/-- The binary operators by precedence, weakest first. -/
def levels : List (List String) :=
  [["||"], ["&&"], ["|"], ["^"], ["&"], ["==", "!="], ["<", "<=", ">", ">="], ["<<", ">>"],
   ["+", "-"], ["*", "/", "%"]]

/-- The operator of an assignment: nothing for a plain one. -/
def assignment? (s : String) : Option (Option String) :=
  match s with
  | "=" => some none
  | "+=" => some (some "+")
  | "-=" => some (some "-")
  | "*=" => some (some "*")
  | "/=" => some (some "/")
  | "%=" => some (some "%")
  | "<<=" => some (some "<<")
  | ">>=" => some (some ">>")
  | "&=" => some (some "&")
  | "|=" => some (some "|")
  | "^=" => some (some "^")
  | _ => none

/-- What reading a part of an expression gives, and the tokens that follow. -/
abbrev Read := Except Problem (Expr × List Token)

mutual
def whole : Nat → List Token → Read
  | 0, _ => .error .expectingPrimary
  | fuel + 1, ts => do
    if let .name n :: .sign s :: rest := ts then
      if let some op := assignment? s then
        let (a, rest) ← whole fuel rest
        return (.assign n op a, rest)
    let (c, ts) ← level fuel levels ts
    match ts with
    | .sign "?" :: ts =>
      let (a, ts) ← whole fuel ts
      match ts with
      | .sign ":" :: ts =>
        let (b, ts) ← whole fuel ts
        return (.choice c a b, ts)
      | _ => throw .expectingColon
    | ts => return (c, ts)

def level : Nat → List (List String) → List Token → Read
  | 0, _, _ => .error .expectingPrimary
  | fuel + 1, [], ts => operand fuel ts
  | fuel + 1, ops :: more, ts => do
    let (a, ts) ← level fuel more ts
    chain fuel ops more a ts

/-- Goes on with operators of one level. -/
def chain : Nat → List String → List (List String) → Expr → List Token → Read
  | 0, _, _, _, _ => .error .expectingPrimary
  | fuel + 1, ops, more, a, ts =>
    match ts with
    | .sign s :: rest =>
      if s ∈ ops then do
        let (b, rest) ← level fuel more rest
        chain fuel ops more (.binary s a b) rest
      else .ok (a, ts)
    | ts => .ok (a, ts)

/-- Reads an operand with the signs in front of it. -/
def operand : Nat → List Token → Read
  | 0, _ => .error .expectingPrimary
  | fuel + 1, ts =>
    match ts with
    | .sign "(" :: ts => do
      let (a, ts) ← whole fuel ts
      match ts with
      | .sign ")" :: ts => return (a, ts)
      | _ => throw .expectingPrimary
    | .sign s :: ts =>
      if s ∈ ["-", "+", "!", "~"] then do
        let (a, ts) ← operand fuel ts
        return (.unary s a, ts)
      else .error .expectingPrimary
    | .number n :: ts => .ok (.number n, ts)
    | .name n :: ts => .ok (.name n, ts)
    | [] => .error .expectingPrimary
end

def Expr.ofText (cs : List Char) : Except Problem Expr :=
  let ts := tokens (cs.length + 1) cs
  match whole (20 * ts.length + 40) ts with
  | .ok (e, []) => .ok e
  | .ok _ => .error .expectingEnd
  | .error e => .error e

/-! ## Evaluation -/

/-- One for true and zero for false. -/
def truth (b : Bool) : Int64 :=
  if b then 1 else 0

def applyUnary (op : String) (a : Int64) : Int64 :=
  match op with
  | "-" => -a
  | "!" => truth (a = 0)
  | "~" => ~~~a
  | _ => a

def applyBinary (op : String) (a b : Int64) : Except Problem Int64 :=
  match op with
  | "|" => .ok (a ||| b)
  | "^" => .ok (a ^^^ b)
  | "&" => .ok (a &&& b)
  | "==" => .ok (truth (a = b))
  | "!=" => .ok (truth (a ≠ b))
  | "<" => .ok (truth (a < b))
  | "<=" => .ok (truth (a ≤ b))
  | ">" => .ok (truth (b < a))
  | ">=" => .ok (truth (b ≤ a))
  | "<<" => .ok (a <<< b)
  | ">>" => .ok (a >>> b)
  | "+" => .ok (a + b)
  | "-" => .ok (a - b)
  | "*" => .ok (a * b)
  | "/" => if b = 0 then .error .divisionByZero else .ok (a / b)
  | "%" => if b = 0 then .error .divisionByZero else .ok (a % b)
  | _ => .ok b

/-- The values that variables have, those set last first. -/
abbrev Values := List (String × Int64)

/-- The value of a variable: of those set in the expression, or else as `get` gives its text. -/
def lookUp (get : String → Option String) (vs : Values) (name : String) : Except Problem Int64 :=
  match vs.lookup name with
  | some n => .ok n
  | none =>
    let text := (get name).getD ""
    match number? text with
    | some n => .ok n
    | none => .error (.illegalNumber text)

/-- The value of an expression, and the variables set so far. What a condition leaves out is not
evaluated. -/
def Expr.eval (get : String → Option String) : Expr → Values → Except Problem (Int64 × Values)
  | number n, vs => .ok (n, vs)
  | name s, vs => (lookUp get vs s).map (·, vs)
  | unary op a, vs => (a.eval get vs).map fun (n, vs) => (applyUnary op n, vs)
  | binary op a b, vs => do
    let (x, vs) ← a.eval get vs
    if op = "||" ∧ x ≠ 0 then return (1, vs)
    if op = "&&" ∧ x = 0 then return (0, vs)
    let (y, vs) ← b.eval get vs
    if op = "||" ∨ op = "&&" then return (truth (y ≠ 0), vs)
    return (← applyBinary op x y, vs)
  | choice c a b, vs => do
    let (x, vs) ← c.eval get vs
    if x ≠ 0 then a.eval get vs else b.eval get vs
  | assign s op a, vs => do
    let (y, vs) ← a.eval get vs
    let value ← match op with
      | none => pure y
      | some op => do applyBinary op (← lookUp get vs s) y
    return (value, (s, value) :: vs)

/-- The value of the text of an expression, and the variables that it sets in their order. -/
def evaluate (get : String → Option String) (cs : List Char) : Except Problem (Int64 × Values) := do
  let e ← Expr.ofText cs
  let (n, vs) ← e.eval get []
  return (n, vs.reverse)

end CoverageMatrix.Shell.Arithmetic
