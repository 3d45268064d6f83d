import CoverageMatrix.Error

/-!
Reports of errors: what was being done, and below it the causes, from the outermost in. A single
cause is indented, several are numbered; lines of one message stay below each other.
-/
namespace CoverageMatrix.CommandLine

structure Report where
  headline : String
  causes : List String := []

namespace Report

def ofError (e : PipelineError) : Report :=
  ⟨e.message, e.cause?.toList⟩

/-- The report of an error that stopped what a headline says. -/
def during (headline : String) (e : PipelineError) : Report :=
  ⟨headline, e.message :: e.cause?.toList⟩

def ofFault (headline : String) (fault : Files.Fault) : Report :=
  ⟨headline, [fault.message]⟩

/-- A message whose lines stand behind a margin; the first one has a margin of its own. -/
def indented (first margin message : String) : String :=
  first ++ String.intercalate ("\n" ++ margin) (message.splitOn "\n")

/-- A number at the end of five places, with a colon. -/
def numberMargin (n : Nat) : String :=
  let digits := toString n
  String.ofList (List.replicate (5 - digits.length) ' ') ++ digits ++ ": "

def causeLines : List String → List String
  | [] => []
  | [cause] => [indented "    " "    " cause]
  | causes => causes.zipIdx.map fun (cause, n) => indented (numberMargin n) "       " cause

def text (r : Report) : String :=
  let causes := if r.causes.isEmpty then ""
    else "\n\nCaused by:" ++ String.join ((causeLines r.causes).map ("\n" ++ ·))
  "Error: " ++ r.headline ++ causes ++ "\n"

end Report
end CoverageMatrix.CommandLine
