import CoverageMatrix.Proofs.Program.Transcript
import Mathlib.Data.List.Basic

/-!
# Notes that close sessions

A session is closed by a call to the reporting service; that a closing step begins is noted before.
What a world knows of both is in the closings among the notes of its journal.
-/
namespace CoverageMatrix

/-- The job whose session is closed by what a note tells. -/
def Note.closes? : Note → Option JobId
  | closing job => some job
  | session (.closing _ scope _) => some scope.jobId
  | _ => none

def Note.closingCode? : Note → Option Int
  | session call => call.closingCode?
  | _ => none

@[simp] theorem Note.closes?_closing (job : JobId) : (closing job).closes? = some job := rfl

@[simp] theorem Note.closes?_session (id : ReporterId) (scope : SessionScope) (code : Int) :
    (session (.closing id scope code)).closes? = some scope.jobId := rfl

def Transcript.closings (t : Transcript) : List Note :=
  t.notes.filter fun n => n.closes?.isSome

@[simp] theorem Transcript.closings_cons (e : Exchange) (t : Transcript) :
    Transcript.closings (e :: t) =
      (e.request.notes.filter fun n => n.closes?.isSome) ++ t.closings := by
  simp [closings]

@[simp] theorem Transcript.closings_append (t u : Transcript) :
    Transcript.closings (t ++ u) = t.closings ++ u.closings := by
  simp [closings]

/-- The notes that tell of the session of one job being closed. -/
def closingsOf (job : JobId) (notes : List Note) : List Note :=
  notes.filter fun n => n.closes? = some job

@[simp] theorem closingsOf_append (job : JobId) (notes more : List Note) :
    closingsOf job (notes ++ more) = closingsOf job notes ++ closingsOf job more :=
  List.filter_append ..

theorem Transcript.closingsOf_notes (job : JobId) (t : Transcript) :
    closingsOf job t.notes = t.closings.filter fun n => n.closes? = some job := by
  rw [closingsOf, closings, List.filter_filter]
  refine List.filter_congr fun n _ => ?_
  cases n.closes? <;> simp

theorem World.hasBegunClosing_iff {w : World} {job : JobId} :
    w.hasBegunClosing job = true ↔ .closing job ∈ closingsOf job w.journal := by
  simp [hasBegunClosing, closingsOf]

theorem World.hasBegunClosing_congr {w v : World} {job : JobId}
    (h : closingsOf job w.journal = closingsOf job v.journal) :
    w.hasBegunClosing job = v.hasBegunClosing job := by
  rw [Bool.eq_iff_iff, hasBegunClosing_iff, hasBegunClosing_iff, h]

theorem World.closingCodes_eq (w : World) (job : JobId) :
    w.closingCodes job = (closingsOf job w.journal).filterMap Note.closingCode? := by
  rw [closingCodes, sessionCallsFor, sessionCalls, List.filter_filterMap, List.filterMap_filterMap,
    closingsOf, List.filterMap_filter]
  refine List.filterMap_congr fun n _ => ?_
  rcases n with i | (⟨id, scope⟩ | ⟨id, scope, code⟩) | j | j
  case session.closing =>
    by_cases h : scope.jobId = job <;> simp [h, Option.filter, Note.closingCode?]
  all_goals simp [Note.closes?, Note.closingCode?, SessionCall.closingCode?]

theorem World.closingCodes_renewed (w : World) (job : JobId) :
    w.renewed.closingCodes job = w.closingCodes job := by
  simp only [closingCodes_eq, closingsOf, renewed, List.filter_filter, List.filterMap_filter]
  refine List.filterMap_congr fun n _ => ?_
  cases n <;> simp [Note.isClosing, Note.closingCode?]

theorem World.hasBegunClosing_renewed (w : World) (job : JobId) :
    w.renewed.hasBegunClosing job = false := by
  simp [hasBegunClosing, renewed, Note.isClosing]

def Request.IsQuiet (r : Request) : Prop :=
  ∀ n ∈ r.notes, n.closes? = none

theorem Request.isQuiet_command (i : Invocation) : (Request.command i).IsQuiet := by
  simp [IsQuiet, notes, Note.closes?]

theorem Request.isQuiet_of_notes_eq_nil {r : Request} (h : r.notes = []) : r.IsQuiet := by
  simp [IsQuiet, h]

theorem Request.isQuiet_note {n : Note} (h : n.closes? = none) : (Request.note n).IsQuiet := by
  simp [IsQuiet, notes, h]

/-- Nothing that a program asks closes a session. -/
def Program.NeverCloses {α : Type} (p : Program α) : Prop :=
  p.Obeys Request.IsQuiet True fun _ => True

theorem Program.NeverCloses.closings_eq_nil {α : Type} {p : Program α} {t : Transcript}
    {o : Option α} (h : p.NeverCloses) (run : p.Follows t o) : t.closings = [] := by
  rw [Transcript.closings, List.filter_eq_nil_iff]
  intro n hn
  obtain ⟨e, he, hn⟩ := List.mem_flatMap.mp hn
  simp [run.asks h e he n hn]

/-- A program closes no session and does not break down by itself. -/
abbrev Program.IsSound {α : Type} (p : Program α) (ends : α → Prop) : Prop :=
  p.Obeys Request.IsQuiet False ends

theorem Program.IsSound.neverCloses {α : Type} {p : Program α} {ends : α → Prop}
    (h : p.IsSound ends) : p.NeverCloses :=
  h.mono (fun _ => id) False.elim fun _ _ => trivial

theorem Program.IsSound.steady {α : Type} {p : Program α} {ends : α → Prop} (h : p.IsSound ends) :
    p.Steady :=
  h.mono (fun _ _ => trivial) id fun _ _ => trivial

end CoverageMatrix
