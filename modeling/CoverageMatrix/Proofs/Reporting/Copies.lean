import CoverageMatrix.Proofs.Files.Copying
import CoverageMatrix.Proofs.Reporting.Desk

/-!
# The copies of a local helper

A helper that is a local file is copied for each job whose session is opened. The copies all hold
what the file held before the first of them, as long as none of them was put over the file itself;
from then on the file and every further copy are empty (`Helper.copies_until_overwritten`).
-/
namespace CoverageMatrix

open Files (placeOf)
open Files.Tree (AgreeOn HoldsCopy)

/-- No command changes what stands at the places of a set. -/
def Host.CommandsSpare (host : Host) (places : Files.Location → Prop) : Prop :=
  ∀ i w, AgreeOn places w.files (host.command i w).files

namespace Helper

variable (h : Helper) (host : Host)

/-! ## A row of calls -/

/-- What a call leaves that opens a session. -/
def opens (w : World) (call : ReporterId × SessionScope) : World :=
  ((h.openSession call.1 call.2).run host w).2

/-- Whether the copy of a job can be put in place. -/
def acquires (w : World) (scope : SessionScope) : Bool :=
  match ((h.acquire (h.locationFor scope)).run host w).1 with
  | some (.ok ()) => true
  | _ => false

/-- Whether the copy of a job is put over what stands at a location. -/
def overwrites (source : Files.Location) (w : World) (scope : SessionScope) : Bool :=
  h.acquires host w scope && placeOf host.cwd (h.locationFor scope) = source

/-- Whether any call of a row puts its copy over what stands at a location. -/
def anyOverwrites (source : Files.Location) : List (ReporterId × SessionScope) → World → Bool
  | [], _ => false
  | call :: rest, w =>
    h.overwrites host source w call.2 || anyOverwrites source rest (h.opens host w call)

/-! ## Putting a copy in place -/

variable {h host} {path : Path} {w w' : World} {id : ReporterId} {scope : SessionScope}

theorem run_acquire_of_copied (copies : h.source = .file path) {target : Path} {t u : Files.Tree}
    (copied : w.files.copy host.cwd path target = .ok t)
    (ready : t.setExecutable host.cwd target true = .ok u) :
    (h.acquire target).run host w = (some (.ok ()), { w with files := u }) := by
  have fetched : (h.fetch target).run host w = (some (.ok ()), { w with files := t }) := by
    rw [fetch, copies]
    change (Program.ask (.copyFile path target) _).run host w = _
    simp only [Program.run, Host.answer, copied]
    rfl
  rw [acquire, Program.bind_eq, Program.run_bind, fetched]
  change (Program.ask (.makeExecutable target) _).run host { w with files := t } = _
  simp only [Program.run, Host.answer, ready]
  rfl

theorem run_acquire_of_fault (copies : h.source = .file path) {target : Path} {fault : Files.Fault}
    (failed : w.files.copy host.cwd path target = .error fault) :
    (h.acquire target).run host w = (some (.error (.helperFetch path.text fault.message)), w) := by
  have fetched : (h.fetch target).run host w =
      (some (.error (.helperFetch path.text fault.message)), w) := by
    rw [fetch, copies]
    change (Program.ask (.copyFile path target) _).run host w = _
    simp only [Program.run, Host.answer, failed]
    rfl
  rw [acquire, Program.bind_eq, Program.run_bind, fetched]
  rfl

/-- A copy is put in place, or the world is left as it was. -/
theorem run_acquire_cases (copies : h.source = .file path) (host : Host) (target : Path)
    (w : World) :
    (∃ t, HoldsCopy host.cwd path target w.files t ∧
      (h.acquire target).run host w = (some (.ok ()), { w with files := t })) ∨
    ∃ fault : Files.Fault, (h.acquire target).run host w =
      (some (.error (.helperFetch path.text fault.message)), w) := by
  cases copied : w.files.copy host.cwd path target with
  | error fault => exact .inr ⟨fault, run_acquire_of_fault copies copied⟩
  | ok t =>
    obtain ⟨u, ready, holds⟩ := Files.Tree.copy_setExecutable copied
    exact .inl ⟨u, holds, run_acquire_of_copied copies copied ready⟩

/-! ## Opening a session -/

theorem run_openSession_of_error {e : PipelineError}
    (failed : (h.acquire (h.locationFor scope)).run host w = (some (.error e), w')) :
    (h.openSession id scope).run host w = (some (.error e), w') := by
  rw [openSession_eq, Program.run_bind, failed]
  rfl

theorem run_openSession_of_ok
    (acquired : (h.acquire (h.locationFor scope)).run host w = (some (.ok ()), w')) :
    (h.openSession id scope).run host w =
      (h.invoke ["before-build"] id scope).run host (w'.noted (.acquired scope.jobId)) := by
  rw [openSession_eq, Program.run_bind, acquired]
  simp only [afterAcquiring, Program.run, Host.answer]

theorem invoke_spares {places : Files.Location → Prop} (spares : host.CommandsSpare places)
    (h : Helper) (args : List String) (id : ReporterId) (scope : SessionScope) (w : World) :
    AgreeOn places w.files ((h.invoke args id scope).run host w).2.files := by
  cases made : h.invocation args id scope with
  | error e =>
    rw [h.run_invoke_of_error id scope host made]
    exact .refl _ _
  | ok i =>
    rw [h.run_invoke_of_ok id scope host made]
    exact spares i w

/-- After a copy was put in place, the rest of the call touches nothing that commands spare. -/
theorem opens_spares {places : Files.Location → Prop} (spares : host.CommandsSpare places)
    (acquired : (h.acquire (h.locationFor scope)).run host w = (some (.ok ()), w')) :
    AgreeOn places w'.files (h.opens host w (id, scope)).files := by
  have spared := invoke_spares spares h ["before-build"] id scope (w'.noted (.acquired scope.jobId))
  rw [← run_openSession_of_ok acquired] at spared
  exact spared

theorem acquires_of_run
    (acquired : (h.acquire (h.locationFor scope)).run host w = (some (.ok ()), w')) :
    h.acquires host w scope = true := by
  rw [acquires, acquired]

theorem acquires_of_error {e : PipelineError}
    (failed : (h.acquire (h.locationFor scope)).run host w = (some (.error e), w')) :
    h.acquires host w scope = false := by
  rw [acquires, failed]

/-! ## What the source holds -/

/-- The source is left alone by a copy that is put elsewhere. -/
theorem bytesAt_source_of_holdsCopy {target : Path} {t t' : Files.Tree}
    (holds : HoldsCopy host.cwd path target t t') :
    t'.bytesAt (placeOf host.cwd path) =
      if placeOf host.cwd target = placeOf host.cwd path then some .empty
      else t.bytesAt (placeOf host.cwd path) := by
  split
  · next same =>
    obtain ⟨e, there, regular, ⟨isSink, -⟩ | ⟨-, bytes⟩⟩ := holds.copied
    · rw [same, there] at isSink
      cases isSink
      cases regular
    · rw [← same, bytes, if_pos same]
  · next apart => exact (holds.elsewhere.bytesAt (Ne.symm apart)).symm

theorem bytesAt_source_opens (copies : h.source = .file path)
    (spares : host.CommandsSpare (· = placeOf host.cwd path)) (w : World)
    (call : ReporterId × SessionScope) :
    (h.opens host w call).files.bytesAt (placeOf host.cwd path) =
      if h.overwrites host (placeOf host.cwd path) w call.2 then some .empty
      else w.files.bytesAt (placeOf host.cwd path) := by
  obtain ⟨id, scope⟩ := call
  rw [overwrites]
  rcases run_acquire_cases copies host (h.locationFor scope) w with ⟨t, holds, ran⟩ | ⟨fault, ran⟩
  · rw [acquires_of_run ran, ← (opens_spares spares ran).bytesAt rfl,
      bytesAt_source_of_holdsCopy holds]
    simp
  · rw [acquires_of_error ran, opens, run_openSession_of_error ran]
    rfl

/-- After a row of calls the file holds what it held before, unless a copy was put over it. -/
theorem bytesAt_source_row (copies : h.source = .file path)
    (spares : host.CommandsSpare (· = placeOf host.cwd path))
    (calls : List (ReporterId × SessionScope)) (w : World) :
    (calls.foldl (h.opens host) w).files.bytesAt (placeOf host.cwd path) =
      if h.anyOverwrites host (placeOf host.cwd path) calls w then some .empty
      else w.files.bytesAt (placeOf host.cwd path) := by
  induction calls generalizing w with
  | nil => rfl
  | cons call rest ih =>
    rw [List.foldl_cons, ih, bytesAt_source_opens copies spares, anyOverwrites]
    cases h.overwrites host (placeOf host.cwd path) w call.2 <;> simp

/-- Sessions are opened one after another, for any jobs, while commands leave alone the file and the
copy in question. A copy that cannot be put in place leaves the world as it was, and so it is when the
file cannot be read. One that is put in place changes nothing else, can be run when the session is
open, and holds what the file held at first, as the file still does; but once a copy, be it this one,
was put over the file itself, both are empty. (Some special files swallow a copy.) -/
theorem copies_until_overwritten (h : Helper) (path : Path) (host : Host) (w₀ : World)
    (before : List (ReporterId × SessionScope)) (id : ReporterId) (scope : SessionScope)
    (copies : h.source = .file path)
    (spares : host.CommandsSpare fun l =>
      l = placeOf host.cwd path ∨ l = placeOf host.cwd (h.locationFor scope)) :
    let w := before.foldl (h.opens host) w₀
    let source := placeOf host.cwd path
    let target := placeOf host.cwd (h.locationFor scope)
    ∃ r w', (h.acquire (h.locationFor scope)).run host w = (some r, w') ∧
      (∀ e, r = .error e → w' = w ∧ (h.openSession id scope).run host w = (some (.error e), w)) ∧
      (∀ fault, w.files.read host.cwd path = .error fault →
        ∃ message, r = .error (.helperFetch path.text message)) ∧
      (r = .ok () → w'.journal = w.journal ∧ AgreeOn (· ≠ target) w.files w'.files ∧
        ∃ content, some content =
            (if h.anyOverwrites host source (before ++ [(id, scope)]) w₀ then some .empty
              else w₀.files.bytesAt source) ∧
          (h.opens host w (id, scope)).files.bytesAt source = some content ∧
          (w.files.get? target = some .sink ∧ w'.files.get? target = some .sink ∨
            (h.opens host w (id, scope)).files.bytesAt target = some content ∧
            (h.opens host w (id, scope)).files.isExecutableAt target = true)) := by
  intro w source target
  have spares' : host.CommandsSpare (· = source) := fun i w l same => spares i w l (.inl same)
  have row : (h.opens host w (id, scope)).files.bytesAt source =
      if h.anyOverwrites host source (before ++ [(id, scope)]) w₀ then some .empty
      else w₀.files.bytesAt source := by
    rw [← bytesAt_source_row copies spares', List.foldl_append]
    rfl
  rcases run_acquire_cases copies host (h.locationFor scope) w with ⟨t, holds, ran⟩ | ⟨fault, ran⟩
  · refine ⟨.ok (), _, ran, ?_, ?_, ?_⟩
    · intro e failed
      cases failed
    · intro fault unread
      obtain ⟨fault', failed⟩ := Files.Tree.copy_of_unread unread (h.locationFor scope)
      rw [run_acquire_of_fault copies failed] at ran
      cases ran
    · intro _
      have after : AgreeOn _ t (h.opens host w (id, scope)).files := opens_spares spares ran
      obtain ⟨e, there, regular, copied⟩ := holds.copied
      have kept : (h.opens host w (id, scope)).files.bytesAt source =
          some (if target = source then .empty else e.bytes) := by
        rw [← after.bytesAt (.inl rfl), bytesAt_source_of_holdsCopy holds]
        split
        · rfl
        · rw [Files.Tree.bytesAt, there]
          rfl
      refine ⟨rfl, holds.elsewhere, _, by rw [← row, kept], kept, ?_⟩
      rcases copied with isSink | ⟨runs, bytes⟩
      · exact .inl isSink
      · rw [← after.bytesAt (.inr rfl), ← after.isExecutableAt (.inr rfl)]
        exact .inr ⟨bytes, runs⟩
  · refine ⟨_, w, ran, ?_, fun _ _ => ⟨_, rfl⟩, ?_⟩
    · intro e failed
      cases failed
      exact ⟨rfl, run_openSession_of_error ran⟩
    · intro succeeded
      cases succeeded

/-- The file is where the copy of one of the jobs goes. The job after it gets an empty copy. -/
theorem copies_until_overwritten_own :
    let h : Helper := ⟨.file ⟨"/helper-b"⟩, ⟨"helper"⟩, "ID", 0, ⟨"/"⟩⟩
    let scope := fun job : String => (⟨⟨job⟩, ⟨"/"⟩, .empty⟩ : SessionScope)
    let w₀ : World := ⟨⟨[(["helper-b"], .file "x".toUTF8 false)]⟩, []⟩
    let before := [(⟨"token"⟩, scope "a"), (⟨"token"⟩, scope "b")]
    let w := before.foldl (h.opens easyHost) w₀
    h.acquires easyHost w (scope "c") = true ∧
      (h.opens easyHost w (⟨"token"⟩, scope "c")).files.bytesAt ["helper-b"] = some .empty ∧
      (h.opens easyHost w (⟨"token"⟩, scope "c")).files.bytesAt ["helper-c"] = some .empty := by
  intro h scope w₀ before w
  have source : placeOf easyHost.cwd ⟨"/helper-b"⟩ = ["helper-b"] := by rfl
  have target : placeOf easyHost.cwd (h.locationFor (scope "c")) = ["helper-c"] := by
    have text : (h.locationFor (scope "c")).text = "/helper-c" := by decide +kernel
    have location : h.locationFor (scope "c") = ⟨"/helper-c"⟩ := congrArg Path.mk text
    exact (congrArg (placeOf easyHost.cwd) location).trans (by rfl)
  have overwritten : h.anyOverwrites easyHost (placeOf easyHost.cwd ⟨"/helper-b"⟩)
      (before ++ [(⟨"token"⟩, scope "c")]) w₀ = true := by
    decide +kernel
  have acquired : h.acquires easyHost w (scope "c") = true := by decide +kernel
  have free : w.files.get? (placeOf easyHost.cwd (h.locationFor (scope "c"))) = none := by
    decide +kernel
  obtain ⟨r, w', ran, -, -, placed⟩ := copies_until_overwritten h ⟨"/helper-b"⟩ easyHost w₀ before
    ⟨"token"⟩ (scope "c") rfl fun _ _ => .refl _ _
  have ok : r = .ok () := by
    cases r with
    | error e =>
      rw [acquires_of_error ran] at acquired
      cases acquired
    | ok u => rfl
  obtain ⟨-, -, content, is, kept, copied⟩ := placed ok
  have empty : content = .empty := Option.some.inj (is.trans (if_pos overwritten))
  rw [empty] at kept copied
  rw [← source, ← target]
  rcases copied with ⟨isSink, -⟩ | ⟨bytes, -⟩
  · cases free.symm.trans isSink
  · exact ⟨acquired, kept, bytes⟩

end Helper
end CoverageMatrix
