import CoverageMatrix.Shell.Script

/-!
The signs that scripts are made of, and what can be wrong with a script. The wording of a flaw names
the sign that stands where it should not, and the sign that should stand there if there is only one.
-/
namespace CoverageMatrix.Shell

inductive Direction where
  | input
  | inputOf
  /-- Input from a file that is made if there is none. -/
  | inputNew
  | output
  | append
  | duplicate
  | document (stripTabs : Bool)

inductive Token where
  /-- The end of the script. -/
  | ending
  | newline
  /-- A sign that is no word, such as a semicolon. -/
  | sign (text : String)
  | redirection (descriptor : Option Nat) (direction : Direction)
  | word (w : Word)
  /-- A word that has a meaning of its own where it stands. -/
  | keyword (text : String)

/-- The text of a word that has neither quotes nor expansions. -/
def Word.bareText? : Word → Option String
  | [.text cs false] => some (String.ofList cs)
  | _ => none

namespace Token

/-- The words that have a meaning of their own at the beginning of a command. -/
def keywords : List String :=
  ["!", "case", "do", "done", "elif", "else", "esac", "fi", "for", "if", "in", "then", "until",
   "while", "\x7b", "\x7d"]

/-- The signs and keywords that end a list of commands. -/
def closers : List String :=
  [")", ";;", "do", "done", "elif", "else", "esac", "fi", "then", "\x7d"]

/-- The sign where a keyword may stand. -/
def atBeginning : Token → Token
  | word w =>
    match w.bareText? with
    | some text => if text ∈ keywords then keyword text else word w
    | none => word w
  | t => t

def isText (text : String) : Token → Bool
  | sign s | keyword s => s = text
  | _ => false

def endsList : Token → Bool
  | ending => true
  | sign s | keyword s => s ∈ closers
  | _ => false

/-- Whether this is the end of the script. -/
def isEnding : Token → Bool
  | ending => true
  | _ => false

def name : Token → String
  | ending => "end of file"
  | newline => "newline"
  | sign s | keyword s => "\"" ++ s ++ "\""
  | redirection _ _ => "redirection"
  | word _ => "word"

end Token

inductive Problem where
  | unexpected (found : Token) (expected : Option Token)
  | openQuote
  | openBackQuote
  | openBraces
  | openBrackets
  | loopName
  | functionName
  /-- What a redirection leads to is no descriptor. -/
  | descriptor

def Problem.message : Problem → String
  | unexpected found none => found.name ++ " unexpected"
  | unexpected found (some t) => found.name ++ " unexpected (expecting " ++ t.name ++ ")"
  | openQuote => "Unterminated quoted string"
  | openBackQuote => "EOF in backquote substitution"
  | openBraces => "Missing '\x7d'"
  | openBrackets => "Missing '))'"
  | loopName => "Bad for loop variable"
  | functionName => "Bad function name"
  | descriptor => "Bad fd number"

/-- A problem, with the line that was read when it showed. -/
structure Flaw where
  line : Nat
  problem : Problem

def Flaw.message (f : Flaw) : String :=
  "Syntax error: " ++ f.problem.message

end CoverageMatrix.Shell
