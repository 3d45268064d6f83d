import CoverageMatrix.Files.Tree
import CoverageMatrix.Program.Basic

/-!
Running programs. A world holds the files and the journal of what was done; a host answers what the
world alone cannot: how a command ends, what the reporting service says, what a download brings.
-/
namespace CoverageMatrix

/-- What programs act on. -/
structure World where
  files : Files.Tree
  /-- What was done so far, oldest first. -/
  journal : List Note

namespace World

/-- The commands that were handed over, in order. -/
def invocations (w : World) : List Invocation :=
  w.journal.filterMap fun
    | .command i => some i
    | _ => none

/-- The calls to the reporting service, in order. -/
def sessionCalls (w : World) : List SessionCall :=
  w.journal.filterMap fun
    | .session call => some call
    | _ => none

def sessionCallsFor (w : World) (job : JobId) : List SessionCall :=
  w.sessionCalls.filter fun call => call.jobId = job

/-- The codes with which the session of a job was closed, once for each call. -/
def closingCodes (w : World) (job : JobId) : List Int :=
  (w.sessionCallsFor job).filterMap SessionCall.closingCode?

def hasBegunClosing (w : World) (job : JobId) : Bool :=
  w.journal.contains (.closing job)

/-- The world in which a new run begins: no closing step has begun in it. -/
def renewed (w : World) : World :=
  { w with journal := w.journal.filter fun n => !n.isClosing }

def noted (w : World) (n : Note) : World :=
  { w with journal := w.journal ++ [n] }

@[simp] theorem files_noted (w : World) (n : Note) : (w.noted n).files = w.files := rfl

@[simp] theorem journal_noted (w : World) (n : Note) : (w.noted n).journal = w.journal ++ [n] := rfl

@[simp] theorem invocations_noted_command (w : World) (i : Invocation) :
    (w.noted (.command i)).invocations = w.invocations ++ [i] := by
  simp [invocations]

@[simp] theorem sessionCalls_noted_command (w : World) (i : Invocation) :
    (w.noted (.command i)).sessionCalls = w.sessionCalls := by
  simp [sessionCalls]

@[simp] theorem invocations_noted_session (w : World) (call : SessionCall) :
    (w.noted (.session call)).invocations = w.invocations := by
  simp [invocations]

@[simp] theorem sessionCalls_noted_session (w : World) (call : SessionCall) :
    (w.noted (.session call)).sessionCalls = w.sessionCalls ++ [call] := by
  simp [sessionCalls]

@[simp] theorem hasBegunClosing_noted_closing (w : World) (job : JobId) :
    (w.noted (.closing job)).hasBegunClosing job = true := by
  simp [hasBegunClosing]

end World

/-- How a command was answered: what it left behind, if the runner itself did not break down, and
the files as they are now. -/
structure CommandReply where
  outcome : Option (Except PipelineError CommandOutput)
  files : Files.Tree

/-- What surrounds the programs. -/
structure Host where
  /-- The current directory, the names on the way to which are taken as UTF-8 text. -/
  cwd : Files.Location
  command : Invocation → World → CommandReply
  service : SessionCall → World → Except PipelineError Unit
  download : String → World → Except PipelineError ByteArray

/-- The files after a change, or as they were if it failed. -/
def World.changed (w : World) (change : Except Files.Fault Files.Tree) :
    Except Files.Fault Unit × World :=
  match change with
  | .ok files => (.ok (), { w with files := files })
  | .error fault => (.error fault, w)

/-- Answers a request; there is no answer if the command runner broke down. -/
def Host.answer (host : Host) (w : World) : (r : Request) → Option r.Answer × World
  | .command i =>
    let reply := host.command i w
    (reply.outcome, { w.noted (.command i) with files := reply.files })
  | .service call => (some (host.service call w), w)
  | .download url => (some (host.download url w), w)
  | .note n => (some (), w.noted n)
  | .wasAcquired job => (some (w.journal.contains (.acquired job)), w)
  | .readFile path => (some (w.files.read host.cwd path), w)
  | .isPresent path => (some (w.files.isPresent host.cwd path), w)
  | .removeFile path => changing (w.changed (w.files.removeFile host.cwd path))
  | .copyFile source target => changing (w.changed (w.files.copy host.cwd source target))
  | .writeFile path content => changing (w.changed (w.files.write host.cwd path content))
  | .makeExecutable path => changing (w.changed (w.files.setExecutable host.cwd path true))
where
  changing (r : Except Files.Fault Unit × World) : Option (Except Files.Fault Unit) × World :=
    (some r.1, r.2)

namespace Program

variable {α β : Type}

/-- Runs a program to its end: its value, if it did not break down, and the world it leaves. -/
def run (host : Host) : Program α → World → Option α × World
  | done a, w => (some a, w)
  | crash, w => (none, w)
  | ask r next, w =>
    match host.answer w r with
    | (some x, w') => (next x).run host w'
    | (none, w') => (none, w')

@[simp] theorem run_done (host : Host) (a : α) (w : World) :
    (done a).run host w = (some a, w) := rfl

@[simp] theorem run_crash (host : Host) (w : World) :
    (crash : Program α).run host w = (none, w) := rfl

theorem run_bind (host : Host) (p : Program α) (f : α → Program β) (w : World) :
    (p.bind f).run host w =
      match p.run host w with
      | (some a, w') => (f a).run host w'
      | (none, w') => (none, w') := by
  induction p generalizing w with
  | done a => rfl
  | crash => rfl
  | ask r next ih =>
    simp only [bind, run]
    rcases host.answer w r with ⟨_ | x, w'⟩
    · rfl
    · exact ih x w'

end Program
end CoverageMatrix
