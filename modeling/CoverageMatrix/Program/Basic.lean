import CoverageMatrix.Invocation
import CoverageMatrix.Session

/-!
Programs: what a job does, step by step, before anyone carries it out. A program asks its
surroundings one thing at a time and goes on with the answer; it ends with a value or breaks down.
Nothing here says what the answers are, so one program can be run alone, among others, or on paper.
-/
namespace CoverageMatrix

/-- An entry of the journal that is kept while programs run. -/
inductive Note where
  /-- A command was handed over to be run. -/
  | command (i : Invocation)
  /-- The reporting service was called. -/
  | session (call : SessionCall)
  /-- The helper of a job was put in place. -/
  | acquired (job : JobId)
  /-- The closing step of a job has begun. -/
  | closing (job : JobId)
deriving DecidableEq

/-- Whether a note says that a closing step has begun. -/
def Note.isClosing : Note → Bool
  | closing _ => true
  | _ => false

inductive Request where
  | command (i : Invocation)
  /-- Hear the reporting service's answer to a call. -/
  | service (call : SessionCall)
  | download (url : String)
  | note (n : Note)
  /-- Whether the helper of a job was put in place before. -/
  | wasAcquired (job : JobId)
  | removeFile (path : Path)
  | readFile (path : Path)
  | isPresent (path : Path)
  | copyFile (source target : Path)
  | writeFile (path : Path) (content : ByteArray)
  | makeExecutable (path : Path)

def Request.Answer : Request → Type
  | command _ => Except PipelineError CommandOutput
  | service _ => Except PipelineError Unit
  | download _ => Except PipelineError ByteArray
  | note _ => Unit
  | wasAcquired _ => Bool
  | removeFile _ => Except Files.Fault Unit
  | readFile _ => Except Files.Fault ByteArray
  | isPresent _ => Bool
  | copyFile _ _ => Except Files.Fault Unit
  | writeFile _ _ => Except Files.Fault Unit
  | makeExecutable _ => Except Files.Fault Unit

/-- A program that ends with a value of type `α`. -/
inductive Program (α : Type) where
  | done (a : α)
  | crash
  | ask (r : Request) (next : r.Answer → Program α)

namespace Program

variable {α β γ : Type}

/-- A program followed by another one, which takes its value. -/
def bind : Program α → (α → Program β) → Program β
  | done a, f => f a
  | crash, _ => crash
  | ask r next, f => ask r fun x => (next x).bind f

instance : Monad Program where
  pure := done
  bind := bind

def request (r : Request) : Program r.Answer :=
  ask r done

@[simp] theorem pure_eq_done (a : α) : (pure a : Program α) = done a := rfl

@[simp] theorem bind_eq (p : Program α) (f : α → Program β) : p >>= f = p.bind f := rfl

@[simp] theorem bind_done (p : Program α) : p.bind done = p := by
  induction p with
  | done a => rfl
  | crash => rfl
  | ask r next ih => simp only [bind, ih]

theorem bind_assoc (p : Program α) (f : α → Program β) (g : β → Program γ) :
    (p.bind f).bind g = p.bind fun a => (f a).bind g := by
  induction p with
  | done a => rfl
  | crash => rfl
  | ask r next ih => simp only [bind, ih]

instance : LawfulMonad Program :=
  LawfulMonad.mk' Program
    (by intro α p; exact bind_done p)
    (by intros; rfl)
    (by intro α β γ p f g; exact bind_assoc p f g)

/-! ## Requests by name -/

def command (i : Invocation) : Program (Except PipelineError CommandOutput) :=
  request (.command i)

def note (n : Note) : Program Unit :=
  request (.note n)

/-- Whether the helper of a job was put in place before. -/
def wasAcquired (job : JobId) : Program Bool :=
  request (.wasAcquired job)

def removeFile (path : Path) : Program (Except Files.Fault Unit) :=
  request (.removeFile path)

def readFile (path : Path) : Program (Except Files.Fault ByteArray) :=
  request (.readFile path)

def isPresent (path : Path) : Program Bool :=
  request (.isPresent path)

end Program
end CoverageMatrix
