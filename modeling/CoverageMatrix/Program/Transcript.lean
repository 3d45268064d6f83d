import CoverageMatrix.Program.World

/-!
Transcripts: what a program asked, and the answers it got. A transcript leaves open who else asked
in between, so it tells the course of a program that runs alone and of one that runs among others.
-/
namespace CoverageMatrix

/-- A request with its answer; there is none if the command runner broke down. -/
structure Exchange where
  request : Request
  answer : Option request.Answer

abbrev Transcript := List Exchange

/-- The notes that a request leaves in the journal. -/
def Request.notes : Request → List Note
  | command i => [.command i]
  | note n => [n]
  | _ => []

/-- The notes that the exchanges of a program left in the journal. -/
def Transcript.notes (t : Transcript) : List Note :=
  t.flatMap fun e => e.request.notes

/-- Whether the command runner broke down in a transcript. -/
def Transcript.isBroken (t : Transcript) : Bool :=
  t.any fun e => e.answer.isNone

namespace Program

variable {α : Type}

/-- A program follows a transcript to an end: a value, or its breakdown. -/
inductive Follows : Program α → Transcript → Option α → Prop
  | done (a : α) : Follows (.done a) [] (some a)
  | crash : Follows .crash [] none
  | answered {r : Request} {next : r.Answer → Program α} {x : r.Answer} {t : Transcript}
      {o : Option α} (rest : Follows (next x) t o) : Follows (.ask r next) (⟨r, some x⟩ :: t) o
  | unanswered {i : Invocation} {next : (Request.command i).Answer → Program α} :
      Follows (.ask (.command i) next) [⟨.command i, none⟩] none

/-- A program keeps to conditions, whatever it is answered: on its requests, on whether it may break
down by itself, and on the values that it may end with. -/
def Obeys (asks : Request → Prop) (mayCrash : Prop) (ends : α → Prop) : Program α → Prop
  | done a => ends a
  | crash => mayCrash
  | ask r next => asks r ∧ ∀ x, (next x).Obeys asks mayCrash ends

/-- A program breaks down only when the command runner does. -/
def Steady (p : Program α) : Prop :=
  p.Obeys (fun _ => True) False fun _ => True

/-- A program comes to a value in any world, whatever others do in between. -/
def Returns (host : Host) : Program α → Prop
  | done _ => True
  | crash => False
  | ask r next => ∀ w, ∃ x, (host.answer w r).1 = some x ∧ (next x).Returns host

end Program
end CoverageMatrix
