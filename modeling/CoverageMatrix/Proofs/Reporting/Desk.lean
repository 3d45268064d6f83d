import CoverageMatrix.Proofs.Program.Partway
import CoverageMatrix.Proofs.Reporting.Helper
import Mathlib.Logic.Relation

/-!
# The calls to one helper

Calls that open and close sessions come in any order and go on side by side, each of them a step at a
time, and anything may happen in between (`Desk.Step`). Whatever the command runner, the service and
the files do, a job's copy is run for no call but those of that job, and to close a session only once
the job's copy was put in place (`Helper.closes_only_what_it_opened`).
-/
namespace CoverageMatrix

/-! ## Calls side by side -/

namespace SessionCall

def id : SessionCall → ReporterId
  | opening id _ => id
  | closing id _ _ => id

def scope : SessionCall → SessionScope
  | opening _ scope => scope
  | closing _ scope _ => scope

/-- What the helper is told by a call. -/
def args : SessionCall → List String
  | opening _ _ => ["before-build"]
  | closing _ _ code => ["after-build", "--exit-code", toString code]

end SessionCall

/-- What a reporter does for a call. -/
def Reporter.answering (r : Reporter) : SessionCall → Program (Except PipelineError Unit)
  | .opening id scope => r.openSession id scope
  | .closing id scope code => r.closeSession id scope code

/-- A call that has been begun: what it has asked so far, and what is left of it. -/
structure Visit where
  call : SessionCall
  made : Transcript
  rest : Program (Except PipelineError Unit)

/-- The calls that have been begun at one helper, and the world around them. -/
structure Desk where
  visits : List Visit
  world : World

namespace Desk

/-- A call begins, or goes on by one exchange with whatever surroundings there are then, or the world
changes elsewhere. -/
inductive Step (h : Helper) : Desk → Desk → Prop
  | begin {visits : List Visit} {w : World} (call : SessionCall) :
    Step h ⟨visits, w⟩ ⟨visits ++ [⟨call, [], h.reporter.answering call⟩], w⟩
  | answered {before after : List Visit} {call : SessionCall} {made : Transcript} {r : Request}
    {next : r.Answer → Program (Except PipelineError Unit)} {x : r.Answer} {w w' : World}
    (host : Host) (answer : host.answer w r = (some x, w')) :
    Step h ⟨before ++ ⟨call, made, .ask r next⟩ :: after, w⟩
      ⟨before ++ ⟨call, made ++ [⟨r, some x⟩], next x⟩ :: after, w'⟩
  | unanswered {before after : List Visit} {call : SessionCall} {made : Transcript} {i : Invocation}
    {next : (Request.command i).Answer → Program (Except PipelineError Unit)} {w w' : World}
    (host : Host) (answer : host.answer w (.command i) = (none, w')) :
    Step h ⟨before ++ ⟨call, made, .ask (.command i) next⟩ :: after, w⟩
      ⟨before ++ ⟨call, made ++ [⟨.command i, none⟩], .crash⟩ :: after, w'⟩
  /-- No copy is put in place elsewhere. -/
  | elsewhere {visits : List Visit} {w w' : World}
    (same : ∀ job, .acquired job ∈ w'.journal ↔ .acquired job ∈ w.journal) :
    Step h ⟨visits, w⟩ ⟨visits, w'⟩

def Reaches (h : Helper) : Desk → Desk → Prop :=
  Relation.ReflTransGen (Step h)

end Desk

/-- A call that opens a session has got past putting the job's copy in place. -/
def Helper.Acquires (h : Helper) (id : ReporterId) (scope : SessionScope) (t : Transcript) : Prop :=
  ∃ u more, t = ⟨.note (.session (.opening id scope)), some ()⟩ :: u ++ more ∧
    (h.acquire (h.locationFor scope)).Follows u (some (.ok ()))

namespace Visit

/-- The call hands a command to the runner: it has done so, or does so next. -/
def Hands (v : Visit) (i : Invocation) : Prop :=
  Program.Asked v.made v.rest (.command i)

/-- The call has noted that the copy of a job is in place. -/
def Notes (v : Visit) (job : JobId) : Prop :=
  ∃ e ∈ v.made, e.request = .note (.acquired job)

/-- The call opens a session and has got past putting the job's copy in place. -/
def HasAcquired (h : Helper) (v : Visit) : Prop :=
  ∃ id scope, v.call = .opening id scope ∧ h.Acquires id scope v.made

end Visit

/-! ## One call -/

namespace Helper

variable {h : Helper} {id : ReporterId} {scope : SessionScope} {t : Transcript}
  {q : Program (Except PipelineError Unit)}

/-- How far a call has come that opens a session. -/
inductive Opening (h : Helper) (id : ReporterId) (scope : SessionScope) :
    Transcript → Program (Except PipelineError Unit) → Prop
  | called : Opening h id scope [] (h.reporter.openSession id scope)
  | acquiring {t : Transcript} {s : Program (Except PipelineError Unit)}
    (way : (h.acquire (h.locationFor scope)).ComesTo t s) :
    Opening h id scope (⟨.note (.session (.opening id scope)), some ()⟩ :: t)
      (s.bind (h.afterAcquiring id scope))
  | acquired {t u : Transcript} {reply : Except PipelineError Unit}
    {q : Program (Except PipelineError Unit)}
    (way : (h.acquire (h.locationFor scope)).Follows t (some reply))
    (rest : (h.afterAcquiring id scope reply).ComesTo u q) :
    Opening h id scope (⟨.note (.session (.opening id scope)), some ()⟩ :: (t ++ u)) q

theorem opening_of_comesTo (way : (h.reporter.openSession id scope).ComesTo t q) :
    Opening h id scope t q := by
  rcases Program.comesTo_note_iff.mp way with ⟨rfl, rfl⟩ | ⟨u, rfl, rest⟩
  · exact .called
  · replace rest : (h.openSession id scope).ComesTo u q := rest
    rw [openSession_eq] at rest
    rcases rest.of_bind with ⟨s, first, rfl⟩ | ⟨t₁, t₂, reply, rfl, first, second⟩
    · exact .acquiring first
    · exact .acquired first second

/-- Apart from its announcement, a call that opens a session makes itself heard only once it has got
past putting the copy in place. -/
theorem Opening.asked {r : Request} (stage : Opening h id scope t q) (asked : Program.Asked t q r)
    (loud : r.notes ≠ []) :
    r = .note (.session (.opening id scope)) ∨
      h.Acquires id scope t ∧ (r = .note (.acquired scope.jobId) ∨
        ∃ i, r = .command i ∧ h.invocation ["before-build"] id scope = .ok i) := by
  have silent := h.acquire_silent (h.locationFor scope)
  cases stage with
  | called => exact .inl (Program.asked_nil_ask_iff.mp asked).symm
  | acquiring way =>
    rcases Program.asked_cons_iff.mp asked with rfl | asked
    · exact .inl rfl
    · rcases Program.asked_bind asked with asked | ⟨reply, rfl, next⟩
      · exact absurd (way.asked silent asked) loud
      · rcases reply with e | ⟨⟨⟩⟩
        · exact absurd next Program.not_asked_done
        · refine .inr ⟨⟨_, [], (List.append_nil _).symm, way.follows⟩, .inl ?_⟩
          exact (Program.asked_nil_ask_iff.mp next).symm
  | @acquired u more reply _ way rest =>
    rcases Program.asked_cons_iff.mp asked with rfl | asked
    · exact .inl rfl
    · rcases Program.asked_append_iff.mp asked with asked | asked
      · exact absurd (way.asked silent asked) loud
      · rcases reply with e | ⟨⟨⟩⟩
        · obtain ⟨rfl, rfl⟩ := Program.comesTo_done_iff.mp rest
          exact absurd asked Program.not_asked_done
        · refine .inr ⟨⟨u, more, rfl, way⟩, ?_⟩
          rcases Program.comesTo_note_iff.mp rest with ⟨rfl, rfl⟩ | ⟨v, rfl, told⟩
          · exact .inl (Program.asked_nil_ask_iff.mp asked).symm
          · rcases Program.asked_cons_iff.mp asked with rfl | asked
            · exact .inl rfl
            · exact .inr (told.asked (h.invoke_asks id scope ["before-build"]) asked)

/-- Where the copy could not be put in place, the call has returned why. -/
theorem Opening.failed {u : Transcript} {e : PipelineError} (stage : Opening h id scope t q)
    (made : t = ⟨.note (.session (.opening id scope)), some ()⟩ :: u)
    (fails : (h.acquire (h.locationFor scope)).Follows u (some (.error e))) :
    ¬h.Acquires id scope t ∧ q = .done (.error e) := by
  constructor
  · rintro ⟨u', more, rfl, acquired⟩
    have same : u ++ [] = u' ++ more := by simpa using made.symm
    cases (fails.cut acquired same).2
  · cases stage with
    | called => cases made
    | acquiring way =>
      cases made
      rw [way.eq_done fails]
      rfl
    | @acquired t more reply q way rest =>
      cases made
      obtain ⟨same, failed⟩ := way.cut fails (List.append_nil (t ++ more)).symm
      cases failed
      exact (Program.comesTo_done_iff.mp rest).2

/-- How far a call has come that closes a session. -/
inductive Closing (h : Helper) (id : ReporterId) (scope : SessionScope) (code : Int) :
    Transcript → Program (Except PipelineError Unit) → Prop
  | called : Closing h id scope code [] (h.reporter.closeSession id scope code)
  | checking : Closing h id scope code [⟨.note (.session (.closing id scope code)), some ()⟩]
      (.ask (.wasAcquired scope.jobId) (h.afterAsking id scope code))
  | refused : Closing h id scope code
      [⟨.note (.session (.closing id scope code)), some ()⟩, ⟨.wasAcquired scope.jobId, some false⟩]
      (.done (.error (h.neverAcquired scope)))
  | invoking {t : Transcript} {q : Program (Except PipelineError Unit)}
    (way : (h.invoke (SessionCall.closing id scope code).args id scope).ComesTo t q) :
    Closing h id scope code
      (⟨.note (.session (.closing id scope code)), some ()⟩ ::
        ⟨.wasAcquired scope.jobId, some true⟩ :: t) q

theorem closing_of_comesTo {code : Int} (way : (h.reporter.closeSession id scope code).ComesTo t q) :
    Closing h id scope code t q := by
  rcases Program.comesTo_note_iff.mp way with ⟨rfl, rfl⟩ | ⟨u, rfl, rest⟩
  · exact .called
  · replace rest : (h.closeSession id scope code).ComesTo u q := rest
    rw [closeSession_eq] at rest
    cases rest with
    | refl => exact .checking
    | @answered _ _ acquired _ _ rest =>
      cases acquired with
      | false =>
        obtain ⟨rfl, rfl⟩ := Program.comesTo_done_iff.mp rest
        exact .refused
      | true => exact .invoking rest

/-- Apart from its announcement, a call that closes a session makes itself heard only once it was told
that the copy is in place. -/
theorem Closing.asked {code : Int} {r : Request} (stage : Closing h id scope code t q)
    (asked : Program.Asked t q r) (loud : r.notes ≠ []) :
    r = .note (.session (.closing id scope code)) ∨
      ⟨.wasAcquired scope.jobId, some true⟩ ∈ t ∧ ∃ i, r = .command i ∧
        h.invocation (SessionCall.closing id scope code).args id scope = .ok i := by
  cases stage with
  | called => exact .inl (Program.asked_nil_ask_iff.mp asked).symm
  | checking =>
    rcases Program.asked_cons_iff.mp asked with rfl | asked
    · exact .inl rfl
    · obtain rfl := Program.asked_nil_ask_iff.mp asked
      exact absurd rfl loud
  | refused =>
    rcases Program.asked_cons_iff.mp asked with rfl | asked
    · exact .inl rfl
    · rcases Program.asked_cons_iff.mp asked with rfl | asked
      · exact absurd rfl loud
      · exact absurd asked Program.not_asked_done
  | invoking way =>
    rcases Program.asked_cons_iff.mp asked with rfl | asked
    · exact .inl rfl
    · rcases Program.asked_cons_iff.mp asked with rfl | asked
      · exact absurd rfl loud
      · exact .inr ⟨by simp, way.asked (h.invoke_asks id scope _) asked⟩

/-- A call that closes a session and was never told that the copy is in place returns an error once
both its requests are answered. -/
theorem Closing.returns {code : Int} (stage : Closing h id scope code t q)
    (untold : ⟨.wasAcquired scope.jobId, some true⟩ ∉ t) :
    (t.length < 2 ∧ ∃ r next, q = .ask r next) ∨ q = .done (.error (h.neverAcquired scope)) := by
  cases stage with
  | called => exact .inl ⟨by simp, _, _, rfl⟩
  | checking => exact .inl ⟨by simp, _, _, rfl⟩
  | refused => exact .inr rfl
  | invoking way => exact absurd (by simp) untold

end Helper

namespace Visit

variable {h : Helper} {v : Visit}

/-- Only a call that opens the session of a job notes that the job's copy is in place, and only when
it has got past putting it there. -/
theorem Notes.hasAcquired {job : JobId} (notes : v.Notes job)
    (way : (h.reporter.answering v.call).ComesTo v.made v.rest) :
    v.HasAcquired h ∧ v.call.jobId = job := by
  obtain ⟨call, made, rest⟩ := v
  have asked : Program.Asked made rest (.note (.acquired job)) := .inl notes
  have loud : (Request.note (.acquired job)).notes ≠ [] := by simp [Request.notes]
  cases call with
  | opening id scope =>
    rcases (Helper.opening_of_comesTo way).asked asked loud with same | ⟨acquires, same | ⟨i, same, -⟩⟩
    · cases same
    · cases same
      exact ⟨⟨id, scope, rfl, acquires⟩, rfl⟩
    · cases same
  | closing id scope code =>
    rcases (Helper.closing_of_comesTo way).asked asked loud with same | ⟨-, i, same, -⟩ <;> cases same

/-- A command that a call hands over is that of its own job and session, and an opening call has got
past putting the copy in place, as a closing call was told. -/
theorem Hands.invocation {i : Invocation} (hands : v.Hands i)
    (way : (h.reporter.answering v.call).ComesTo v.made v.rest) :
    h.invocation v.call.args v.call.id v.call.scope = .ok i ∧
      (v.HasAcquired h ∨ ∃ id scope code, v.call = .closing id scope code ∧
        ⟨.wasAcquired scope.jobId, some true⟩ ∈ v.made) := by
  obtain ⟨call, made, rest⟩ := v
  have loud : (Request.command i).notes ≠ [] := by simp [Request.notes]
  cases call with
  | opening id scope =>
    rcases (Helper.opening_of_comesTo way).asked hands loud with same | ⟨acquires, same | ⟨j, same, made⟩⟩
    · cases same
    · cases same
    · cases same
      exact ⟨made, .inl ⟨id, scope, rfl, acquires⟩⟩
  | closing id scope code =>
    rcases (Helper.closing_of_comesTo way).asked hands loud with same | ⟨told, j, same, made⟩
    · cases same
    · cases same
      exact ⟨made, .inr ⟨id, scope, code, rfl, told⟩⟩

end Visit

/-! ## All calls -/

namespace Desk

variable {h : Helper} {before after : List Visit} {call : SessionCall} {made : Transcript}
  {rest rest' : Program (Except PipelineError Unit)} {w w' : World} {e : Exchange} {d d' : Desk}
  {visits : List Visit}

/-- Every call is on its way, and what is known of a copy in place was noted by a call. -/
structure Sound (h : Helper) (d : Desk) : Prop where
  comes : ∀ v ∈ d.visits, (h.reporter.answering v.call).ComesTo v.made v.rest
  noted : ∀ job, .acquired job ∈ d.world.journal → ∃ u ∈ d.visits, u.Notes job
  told : ∀ v ∈ d.visits, ∀ job, ⟨.wasAcquired job, some true⟩ ∈ v.made → ∃ u ∈ d.visits, u.Notes job

theorem eq_note_of_mem_notes {job : JobId} {r : Request} (mem : .acquired job ∈ r.notes) :
    r = .note (.acquired job) := by
  cases r with
  | note n =>
    cases List.mem_singleton.mp mem
    rfl
  | command i => cases List.mem_singleton.mp mem
  | _ => cases mem

theorem exists_notes_of_going_on {job : JobId}
    (noted : ∃ u ∈ before ++ ⟨call, made, rest⟩ :: after, u.Notes job) :
    ∃ u ∈ before ++ ⟨call, made ++ [e], rest'⟩ :: after, u.Notes job := by
  obtain ⟨u, mem, n, asked, eq⟩ := noted
  simp only [List.mem_append, List.mem_cons] at mem ⊢
  rcases mem with mem | rfl | mem
  · exact ⟨u, .inl mem, n, asked, eq⟩
  · exact ⟨_, .inr (.inl rfl), n, List.mem_append_left _ asked, eq⟩
  · exact ⟨u, .inr (.inr mem), n, asked, eq⟩

/-- A call goes on by one exchange. -/
theorem Sound.goes_on (sound : Sound h ⟨before ++ ⟨call, made, rest⟩ :: after, w⟩)
    (one : rest.ComesTo [e] rest') (journal : w'.journal = w.journal ++ e.request.notes)
    (answer : ∀ job, e = ⟨.wasAcquired job, some true⟩ → .acquired job ∈ w.journal) :
    Sound h ⟨before ++ ⟨call, made ++ [e], rest'⟩ :: after, w'⟩ := by
  obtain ⟨comes, noted, told⟩ := sound
  refine ⟨fun v mem => ?_, fun job mem => ?_, fun v mem job asked => ?_⟩
  · simp only [List.mem_append, List.mem_cons] at mem comes
    rcases mem with mem | rfl | mem
    · exact comes v (.inl mem)
    · exact (comes _ (.inr (.inl rfl))).trans one
    · exact comes v (.inr (.inr mem))
  · rw [journal, List.mem_append] at mem
    rcases mem with mem | mem
    · exact exists_notes_of_going_on (noted job mem)
    · exact ⟨⟨call, made ++ [e], rest'⟩, by simp, e, by simp, eq_note_of_mem_notes mem⟩
  · have known : ∃ u ∈ before ++ ⟨call, made, rest⟩ :: after, u.Notes job := by
      rcases List.mem_append.mp mem with mem | mem
      · exact told v (List.mem_append_left _ mem) job asked
      · rcases List.mem_cons.mp mem with rfl | mem
        · rcases List.mem_append.mp asked with asked | asked
          · exact told ⟨call, made, rest⟩ (by simp) job asked
          · exact noted job (answer job (List.mem_singleton.mp asked).symm)
        · exact told v (by simp [mem]) job asked
    exact exists_notes_of_going_on known

theorem Step.sound (step : Step h d d') (sound : Sound h d) : Sound h d' := by
  cases step with
  | @begin visits w call =>
    obtain ⟨comes, noted, told⟩ := sound
    refine ⟨fun v mem => ?_, fun job mem => ?_, fun v mem job asked => ?_⟩
    · rcases List.mem_append.mp mem with mem | mem
      · exact comes v mem
      · cases List.mem_singleton.mp mem
        exact .refl _
    · obtain ⟨u, there, notes⟩ := noted job mem
      exact ⟨u, List.mem_append_left _ there, notes⟩
    · rcases List.mem_append.mp mem with mem | mem
      · obtain ⟨u, there, notes⟩ := told v mem job asked
        exact ⟨u, List.mem_append_left _ there, notes⟩
      · cases List.mem_singleton.mp mem
        cases asked
  | @answered before after call made r next x w w' host answer =>
    refine sound.goes_on (.answered (.refl _)) ?_ fun job same => ?_
    · have journal := host.journal_answer w r
      rwa [answer] at journal
    · cases same
      have contained : some (w.journal.contains (.acquired job)) = some true :=
        congrArg Prod.fst answer
      simpa using contained
  | @unanswered before after call made i next w w' host answer =>
    refine sound.goes_on .unanswered ?_ fun job same => ?_
    · have journal := host.journal_answer w (.command i)
      rwa [answer] at journal
    · cases same
  | @elsewhere visits w w' same =>
    exact ⟨sound.comes, fun job mem => sound.noted job ((same job).mp mem), sound.told⟩

theorem Reaches.sound (run : Reaches h d d') (sound : Sound h d) : Sound h d' := by
  induction run with
  | refl => exact sound
  | tail _ step ih => exact step.sound ih

/-! ### Calls carried to their end -/

/-- What is left of a program that came to an end. -/
def remains : Option (Except PipelineError Unit) → Program (Except PipelineError Unit)
  | some reply => .done reply
  | none => .crash

theorem remains_ne_ask (o : Option (Except PipelineError Unit)) (r : Request)
    (next : r.Answer → Program (Except PipelineError Unit)) : remains o ≠ .ask r next := by
  cases o <;> exact nofun

/-- A call can always be carried to its end, here with nothing going on beside it. -/
theorem Reaches.carried (host : Host) (h : Helper) (before after : List Visit) (call : SessionCall)
    (made : Transcript) (p : Program (Except PipelineError Unit)) (w : World) :
    ∃ t, Reaches h ⟨before ++ ⟨call, made, p⟩ :: after, w⟩
        ⟨before ++ ⟨call, made ++ t, remains (p.run host w).1⟩ :: after, (p.run host w).2⟩ ∧
      (p.run host w).2.journal = w.journal ++ t.notes := by
  induction p generalizing made w with
  | done a => exact ⟨[], by simpa using .refl, by simp⟩
  | crash => exact ⟨[], by simpa using .refl, by simp⟩
  | ask r next ih =>
    have journal := host.journal_answer w r
    rcases answer : host.answer w r with ⟨_ | x, w'⟩ <;> simp only [Program.run, answer] at journal ⊢
    · obtain ⟨i, rfl⟩ := Host.eq_command_of_answer_eq_none answer
      exact ⟨[⟨.command i, none⟩], .single (.unanswered host answer), by simpa using journal⟩
    · obtain ⟨t, run, notes⟩ := ih x (made ++ [⟨r, some x⟩]) w'
      refine ⟨⟨r, some x⟩ :: t, .head (.answered host answer) ?_, ?_⟩
      · rw [List.append_cons made _ t]
        exact run
      · rw [notes, journal, Transcript.notes_cons, List.append_assoc]

theorem Reaches.called (host : Host) (run : Reaches h d ⟨visits, w⟩) (call : SessionCall) :
    ∃ t o, Reaches h d ⟨visits ++ [⟨call, t, remains o⟩],
        ((h.reporter.answering call).run host w).2⟩ ∧
      ((h.reporter.answering call).run host w).2.journal = w.journal ++ t.notes := by
  obtain ⟨t, more, notes⟩ := Reaches.carried host h visits [] call [] (h.reporter.answering call) w
  exact ⟨t, _, (run.tail (.begin call)).trans more, notes⟩

end Desk

/-- A call runs every command that it leaves in the journal. -/
theorem Visit.hands_of_mem_notes {h : Helper} {v : Visit} {i : Invocation}
    (way : (h.reporter.answering v.call).ComesTo v.made v.rest) (mem : .command i ∈ v.made.notes) :
    v.Hands i := by
  obtain ⟨call, made, rest⟩ := v
  obtain ⟨e, there, notes⟩ := List.mem_flatMap.mp mem
  have loud : e.request.notes ≠ [] := List.ne_nil_of_mem notes
  have asked : Program.Asked made rest e.request := .inl ⟨e, there, rfl⟩
  have command : ∃ j, e.request = .command j := by
    cases call with
    | opening id scope =>
      rcases (Helper.opening_of_comesTo way).asked asked loud with same | ⟨-, same | ⟨j, same, -⟩⟩
      · rw [same] at notes
        cases List.mem_singleton.mp notes
      · rw [same] at notes
        cases List.mem_singleton.mp notes
      · exact ⟨j, same⟩
    | closing id scope code =>
      rcases (Helper.closing_of_comesTo way).asked asked loud with same | ⟨-, j, same, -⟩
      · rw [same] at notes
        cases List.mem_singleton.mp notes
      · exact ⟨j, same⟩
  obtain ⟨j, same⟩ := command
  rw [same] at notes
  cases List.mem_singleton.mp notes
  exact .inl ⟨e, there, same⟩

/-! ## The law -/

/-- Whatever calls there were at a helper that began without copies, and whatever happened beside
them: each call runs no command but its own, with its job's copy and what it was called for, and only
after a call that opened a session of that job had got past putting the copy in place. A call that
closes a session without that runs nothing and returns an error after its second request, and one
that fails to put the copy in place runs nothing and returns why. -/
theorem Helper.closes_only_what_it_opened (h : Helper) (w : World) (d : Desk)
    (fresh : ∀ job, .acquired job ∉ w.journal) (run : Desk.Reaches h ⟨[], w⟩ d) (v : Visit)
    (mem : v ∈ d.visits) :
    (∀ i, v.Hands i →
      i.argv = (h.locationFor v.call.scope).text :: v.call.args ∧
      h.invocation v.call.args v.call.id v.call.scope = .ok i ∧
      ∃ u ∈ d.visits, u.HasAcquired h ∧ u.call.jobId = v.call.jobId) ∧
    (∀ id scope code, v.call = .closing id scope code →
      (∀ u ∈ d.visits, u.HasAcquired h → u.call.jobId ≠ scope.jobId) →
      (∀ i, ¬v.Hands i) ∧
      ((v.made.length < 2 ∧ ∃ r next, v.rest = .ask r next) ∨
        v.rest = .done (.error (h.neverAcquired scope)))) ∧
    ∀ id scope t e, v.call = .opening id scope →
      v.made = ⟨.note (.session (.opening id scope)), some ()⟩ :: t →
      (h.acquire (h.locationFor scope)).Follows t (some (.error e)) →
      (∀ i, ¬v.Hands i) ∧ v.rest = .done (.error e) := by
  have start : Desk.Sound h ⟨[], w⟩ := ⟨by simp, fun job mem => absurd mem (fresh job), by simp⟩
  have sound := run.sound start
  have way := sound.comes v mem
  have acquired {job : JobId} (noted : ∃ u ∈ d.visits, u.Notes job) :
      ∃ u ∈ d.visits, u.HasAcquired h ∧ u.call.jobId = job := by
    obtain ⟨u, there, notes⟩ := noted
    exact ⟨u, there, notes.hasAcquired (sound.comes u there)⟩
  refine ⟨fun i hands => ?_, ?_, ?_⟩
  · obtain ⟨made, own⟩ := hands.invocation way
    refine ⟨by rw [h.eq_of_invocation _ _ made]; rfl, made, ?_⟩
    rcases own with own | ⟨id, scope, code, call, told⟩
    · exact ⟨v, mem, own, rfl⟩
    · rw [call]
      exact acquired (sound.told v mem _ told)
  · intro id scope code call never
    have untold : ⟨.wasAcquired scope.jobId, some true⟩ ∉ v.made := by
      intro told
      obtain ⟨u, there, has, same⟩ := acquired (sound.told v mem _ told)
      exact never u there has same
    obtain ⟨_, made, rest⟩ := v
    obtain rfl : _ = SessionCall.closing id scope code := call
    refine ⟨fun i hands => ?_, (closing_of_comesTo way).returns untold⟩
    obtain ⟨-, ⟨_, _, other, -⟩ | ⟨_, _, _, same, told⟩⟩ := hands.invocation way
    · cases other
    · cases same
      exact untold told
  · intro id scope t e call made fails
    obtain ⟨_, _, rest⟩ := v
    obtain rfl : _ = SessionCall.opening id scope := call
    obtain rfl : _ = _ :: t := made
    obtain ⟨missing, ended⟩ := (opening_of_comesTo way).failed rfl fails
    refine ⟨fun i hands => ?_, ended⟩
    obtain ⟨-, ⟨_, _, same, acquires⟩ | ⟨_, _, _, other, -⟩⟩ := hands.invocation way
    · cases same
      exact missing acquires
    · cases other

/-- Surroundings in which every command ends well. -/
def easyHost : Host where
  cwd := []
  command _ w := ⟨some (.ok ⟨0, "", "", 0⟩), w.files⟩
  service _ _ := .ok ()
  download _ _ := .ok .empty

/-- Two jobs at one helper, of which one never opened its session. A copy that lies at its place does
not help it. -/
theorem Helper.closes_only_what_it_opened_stale :
    let h : Helper := ⟨.file ⟨"/helper"⟩, ⟨"helper"⟩, "ID", 0, ⟨"/"⟩⟩
    let scope := fun job : String => (⟨⟨job⟩, ⟨"/"⟩, .empty⟩ : SessionScope)
    let w : World := ⟨⟨[(["helper"], .file "x".toUTF8 true), (["helper-b"], .file "x".toUTF8 true)]⟩, []⟩
    ∃ d, Desk.Reaches h ⟨[], w⟩ d ∧
      (∃ v ∈ d.visits, v.call = .closing ⟨"token"⟩ (scope "b") 0 ∧ (∀ i, ¬v.Hands i) ∧
        v.rest = .done (.error (h.neverAcquired (scope "b")))) ∧
      ∃ v ∈ d.visits, v.call = .closing ⟨"token"⟩ (scope "a") 0 ∧ ∃ i, v.Hands i ∧
        i.argv = ["/helper-a", "after-build", "--exit-code", "0"] := by
  intro h scope w
  let opens : SessionCall := .opening ⟨"token"⟩ (scope "a")
  let strays : SessionCall := .closing ⟨"token"⟩ (scope "b") 0
  let closes : SessionCall := .closing ⟨"token"⟩ (scope "a") 0
  obtain ⟨t₁, o₁, run, -⟩ := Desk.Reaches.called easyHost (.refl : Desk.Reaches h ⟨[], w⟩ _) opens
  obtain ⟨t₂, o₂, run, -⟩ := run.called easyHost strays
  obtain ⟨t₃, o₃, run, notes⟩ := run.called easyHost closes
  let opened : Visit := ⟨opens, t₁, Desk.remains o₁⟩
  let strayed : Visit := ⟨strays, t₂, Desk.remains o₂⟩
  let closed : Visit := ⟨closes, t₃, Desk.remains o₃⟩
  have strayed_mem : strayed ∈ [opened, strayed, closed] := by simp
  have closed_mem : closed ∈ [opened, strayed, closed] := by simp
  have way := (run.sound ⟨by simp, by simp [w], by simp⟩).comes closed closed_mem
  refine ⟨_, run, ⟨strayed, strayed_mem, rfl, ?_⟩, closed, closed_mem, rfl, ?_⟩
  · obtain ⟨-, refused, -⟩ := closes_only_what_it_opened h w _ (by simp [w]) run strayed strayed_mem
    have never : ∀ u ∈ [opened, strayed, closed], u.HasAcquired h → u.call.jobId ≠ ⟨"b"⟩ := by
      intro u mem acquired
      obtain ⟨id, scope, call, -⟩ := acquired
      simp only [List.mem_cons, List.not_mem_nil, or_false] at mem
      rcases mem with rfl | rfl | rfl
      · have apart : (⟨"a"⟩ : JobId) ≠ ⟨"b"⟩ := by decide
        exact apart
      · cases call
      · cases call
    obtain ⟨silent, ⟨-, _, _, going⟩ | ended⟩ := refused _ _ _ rfl never
    · exact absurd going (Desk.remains_ne_ask _ _ _)
    · exact ⟨silent, ended⟩
  · let command : Invocation := ⟨"reporter after-build", "/helper-a",
      ["after-build", "--exit-code", "0"], EnvVars.empty.insert "ID" "token", ⟨"/"⟩, 0⟩
    have last : ((h.reporter.answering closes).run easyHost ((h.reporter.answering strays).run easyHost
        ((h.reporter.answering opens).run easyHost w).2).2).2.journal =
        ((h.reporter.answering strays).run easyHost
          ((h.reporter.answering opens).run easyHost w).2).2.journal ++
            [.session closes, .command command] := by
      decide +kernel
    rw [last] at notes
    have told : .command command ∈ t₃.notes := by
      rw [← List.append_cancel_left notes]
      simp
    exact ⟨command, Visit.hands_of_mem_notes way told, rfl⟩

end CoverageMatrix
