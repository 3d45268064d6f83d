import CoverageMatrix.Data.Fragment
import CoverageMatrix.Text.Hex

/-!
Strings of JSON. A string whose escapes do not pair up to characters has no content, but its end can
still be found: only a string that is passed over may have such escapes.
-/
namespace CoverageMatrix.Json

/-- A string as far as a text shows it. -/
structure StringReading where
  content : Except Malformed String
  /-- What follows the closing quote, or why there is none. -/
  rest : Except Malformed (List Char)

/-! ## Escapes -/

/-- Reads four hexadecimal digits. A text that has less than four bytes left ends too early. -/
def fourDigits (cs : List Char) : Except Malformed (Nat × List Char) :=
  match cs with
  | a :: b :: c :: d :: rest =>
    match Text.Hex.value? a, Text.Hex.value? b, Text.Hex.value? c, Text.Hex.value? d with
    | some a, some b, some c, some d => .ok (((a * 16 + b) * 16 + c) * 16 + d, rest)
    | _, _, _, _ => .error .invalidEscape
  | cs => .error (if (String.ofList cs).utf8ByteSize < 4 then .endInString else .invalidEscape)

/-- Reads the second half of a pair of surrogates. -/
def trailingSurrogate (cs : List Char) : Except Malformed (Nat × List Char) :=
  match cs with
  | '\\' :: 'u' :: more => do
    let (n, rest) ← fourDigits more
    if 0xDC00 ≤ n ∧ n ≤ 0xDFFF then pure (n, rest) else throw .loneSurrogate
  | [] | ['\\'] => throw .endInString
  | _ => throw .endInEscape

/-- What a backslash and the characters after it stand for. -/
inductive Escape where
  | char (c : Char) (rest : List Char)
  /-- Half of a pair of surrogates. -/
  | half (fault : Malformed) (rest : List Char)
  | broken (fault : Malformed)

/-- Reads what follows a backslash and `u`: one code unit, or a pair of surrogates. -/
def unicodeEscape (cs : List Char) : Escape :=
  match fourDigits cs with
  | .error fault => .broken fault
  | .ok (n, rest) =>
    if 0xDC00 ≤ n ∧ n ≤ 0xDFFF then .half .loneSurrogate rest
    else if 0xD800 ≤ n ∧ n ≤ 0xDBFF then
      match trailingSurrogate rest with
      | .ok (m, rest) => .char (Char.ofNat ((n - 0xD800) * 0x400 + (m - 0xDC00) + 0x10000)) rest
      | .error fault => .half fault rest
    else .char (Char.ofNat n) rest

/-- The character that a one-letter escape stands for. -/
def simpleEscape? (c : Char) : Option Char :=
  match c with
  | '"' => some '"'
  | '\\' => some '\\'
  | '/' => some '/'
  | 'b' => some '\x08'
  | 'f' => some '\x0c'
  | 'n' => some '\n'
  | 'r' => some '\r'
  | 't' => some '\t'
  | _ => none

/-- Reads what follows a backslash. -/
def escape (cs : List Char) : Escape :=
  match cs with
  | [] => .broken .endInString
  | 'u' :: rest => unicodeEscape rest
  | c :: rest =>
    match simpleEscape? c with
    | some c => .char c rest
    | none => .broken .invalidEscape

/-! ## Strings -/

/-- Reads a string after its opening quote; `fuel` bounds its length. The characters that came
before are given in reverse, with the first fault of their escapes. -/
def stringBody : Nat → List Char → Option Malformed → List Char → StringReading
  | 0, _, fault, _ => ⟨.error (fault.getD .endInString), .error .endInString⟩
  | fuel + 1, before, fault, cs =>
    match cs with
    | [] => ⟨.error (fault.getD .endInString), .error .endInString⟩
    | c :: rest =>
      if c = '"' then
        ⟨match fault with
          | none => .ok (String.ofList before.reverse)
          | some fault => .error fault, .ok rest⟩
      else if c = '\\' then
        match escape rest with
        | .char c rest => stringBody fuel (c :: before) fault rest
        | .half f rest => stringBody fuel before (fault.or (some f)) rest
        | .broken f => ⟨.error (fault.getD f), .error f⟩
      else if c.toNat < 0x20 then
        ⟨.error (fault.getD .controlCharacter), .error .controlCharacter⟩
      else stringBody fuel (c :: before) fault rest

def string (fuel : Nat) (cs : List Char) : StringReading :=
  stringBody fuel [] none cs

end CoverageMatrix.Json
