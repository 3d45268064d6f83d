import CoverageMatrix.EnvVars

/-!
Scripts of the shell. A word is a list of parts, which are put together when the word is expanded;
a command is built from simple commands by sequences, conditions, loops and pipes.
-/
namespace CoverageMatrix.Shell

inductive Fallback where
  | useWord
  /-- Another word, to which the parameter is set as well. -/
  | assign
  /-- Another word, if the parameter is set. -/
  | alternative
  /-- An error message. -/
  | failure
deriving DecidableEq

/-- Which end of a value a pattern is removed from, and how much of it. -/
structure Trim where
  fromEnd : Bool
  longest : Bool

mutual
/-- A part of a word. Results of quoted parts are not split into fields. -/
inductive Part where
  | text (chars : List Char) (quoted : Bool)
  | parameter (name : String) (quoted : Bool)
  /-- The number of characters of a parameter. -/
  | size (name : String)
  /-- A parameter with a fallback; `orEmpty` treats an empty value as none. -/
  | guarded (name : String) (fallback : Fallback) (orEmpty : Bool) (word : List Part)
    (quoted : Bool)
  | trimmed (name : String) (trim : Trim) (pattern : List Part) (quoted : Bool)
  | output (command : Command) (quoted : Bool)
  | arithmetic (expression : List Part) (quoted : Bool)
  /-- Braces whose content means nothing. -/
  | illFormed

/-- Where a descriptor leads while a command runs. -/
inductive Redirect where
  | input (target : List Part)
  /-- Input from what a descriptor leads to. -/
  | inputOf (target : List Part)
  /-- Input from a file that is made if there is none. -/
  | inputNew (target : List Part)
  | output (descriptor : Nat) (append : Bool) (target : List Part)
  | duplicate (descriptor : Nat) (target : List Part)
  | document (body : List Part)

inductive Command where
  | nothing
  /-- A simple command, with the line that it stands on. -/
  | simple (line : Nat) (assignments : List (String × List Part)) (words : List (List Part))
    (redirects : List Redirect)
  | sequence (first second : Command)
  | both (first second : Command)
  | either (first second : Command)
  | negate (command : Command)
  | pipe (first second : Command)
  | branch (condition thenDo elseDo : Command)
  | loop (untilTrue : Bool) (condition body : Command)
  | forEach (name : String) (words : Option (List (List Part))) (body : Command)
  | choose (word : List Part) (cases : List (List (List Part) × Command))
  | group (ownShell : Bool) (body : Command) (redirects : List Redirect)
  | function (name : String) (body : Command)
  /-- A command that nothing waits for. -/
  | background (command : Command)
end

abbrev Word := List Part

def Redirect.target : Redirect → Word
  | input w | inputOf w | inputNew w | output _ _ w | duplicate _ w | document w => w

def Redirect.isInput : Redirect → Bool
  | input _ | inputOf _ | inputNew _ | document _ => true
  | output _ _ _ | duplicate _ _ => false

def Redirect.isOfDescriptor : Redirect → Bool
  | inputOf _ | duplicate _ _ => true
  | input _ | inputNew _ | output _ _ _ | document _ => false

/-- The commands whose failure ends the script, and before which assignments stay. No function has
their names. -/
def specialCommands : List String :=
  [":", ".", "break", "continue", "eval", "exec", "exit", "export", "readonly", "return", "set",
   "shift", "times", "trap", "unset"]

/-- Whether a text can be the name of a variable. -/
def isName (s : String) : Bool :=
  match s.toList with
  | [] => false
  | c :: cs => (c.isAlpha || c = '_') && cs.all fun c => c.isAlphanum || c = '_'

end CoverageMatrix.Shell
