import CoverageMatrix.Coverage.State
import CoverageMatrix.Proofs.Files.Difference
import CoverageMatrix.Program.World

/-!
# Coverage data over time

A job's coverage data may be erased and collected in any order, and between two operations the files
may change in any way. What is known is then what the operations have told that succeeded
(`CoverageState.Leads.state_eq`); one that fails leaves it as it was.
-/
namespace CoverageMatrix

open Files.Tree (Cleared)

variable {host : Host}

namespace Files.Tree

variable {t : Tree} {cwd : Location} {p : Path}

theorem isPresent_of_read {content : ByteArray} (h : t.read cwd p = .ok content) :
    t.isPresent cwd p = true := by
  rw [read] at h
  rw [isPresent]
  cases found : t.find cwd p with
  | error fault =>
    rw [found] at h
    cases h
  | ok r => rfl

theorem isPresent_of_missing (h : t.read cwd p = .error .notFound) :
    t.isPresent cwd p = false := by
  rw [read] at h
  rw [isPresent]
  cases found : t.find cwd p with
  | error fault => rfl
  | ok r =>
    -- what is found but cannot be read is a directory, which is another fault
    rw [found] at h
    obtain ⟨l, e⟩ := r
    cases e <;> cases h

end Files.Tree

namespace CoverageState

/-- What an operation tells that succeeded. -/
inductive Answer where
  | erased
  | collected (d : Option CoverageDataset)
deriving DecidableEq

/-- Operations on the coverage data of a job, with what they told, and changes of the world in
between. -/
inductive Leads (host : Host) (start : CoverageState × World) :
    List Answer → CoverageState → World → Prop
  | start : Leads host start [] start.1 start.2
  | erased {told : List Answer} {s s' : CoverageState} {w w' : World}
    (before : Leads host start told s w) (run : s.erase.run host w = (some (.ok (), s'), w')) :
    Leads host start (told ++ [.erased]) s' w'
  | notErased {told : List Answer} {s s' : CoverageState} {w w' : World} {e : PipelineError}
    (before : Leads host start told s w) (run : s.erase.run host w = (some (.error e, s'), w')) :
    Leads host start told s' w'
  | collected {told : List Answer} {s s' : CoverageState} {w w' : World}
    {d : Option CoverageDataset} (before : Leads host start told s w)
    (run : s.collect.run host w = (some (.ok d, s'), w')) :
    Leads host start (told ++ [.collected d]) s' w'
  | notCollected {told : List Answer} {s s' : CoverageState} {w w' : World} {e : PipelineError}
    (before : Leads host start told s w) (run : s.collect.run host w = (some (.error e, s'), w')) :
    Leads host start told s' w'
  | elsewhere {told : List Answer} {s : CoverageState} {w : World}
    (before : Leads host start told s w) (w' : World) : Leads host start told s w'

/-- The dataset of which the last answer told. -/
def latest (told : List Answer) : Option CoverageDataset :=
  match told.getLast? with
  | some (.collected d) => d
  | _ => none

/-! ## One operation -/

variable {s s' : CoverageState} {w w' : World}

theorem run_erase_of_cleared {t : Files.Tree} (h : Cleared host.cwd s.dataFile w.files t) :
    s.erase.run host w =
      (some (.ok (), { s with erased := true, dataset := none }), { w with files := t }) := by
  change (Program.ask (.removeFile s.dataFile) _).run host w = _
  simp only [Program.run, Host.answer, Host.answer.changing]
  rcases h with removed | ⟨missing, rfl⟩
  · rw [removed]
    rfl
  · rw [missing]
    rfl

theorem run_erase_of_error {fault : Files.Fault}
    (h : w.files.removeFile host.cwd s.dataFile = .error fault) (other : fault ≠ .notFound) :
    s.erase.run host w = (some (.error (.io fault), s), w) := by
  change (Program.ask (.removeFile s.dataFile) _).run host w = _
  simp only [Program.run, Host.answer, Host.answer.changing, h, World.changed, Program.bind]
  split
  · next eq => cases eq
  · next eq => exact absurd (Except.error.inj eq) other
  · next eq =>
    cases eq
    rfl

/-- Erasing clears the data file's place, or fails and changes nothing. -/
theorem run_erase_cases (host : Host) (s : CoverageState) (w : World) :
    (∃ t, Cleared host.cwd s.dataFile w.files t ∧ s.erase.run host w =
      (some (.ok (), { s with erased := true, dataset := none }), { w with files := t })) ∨
    ∃ e, s.erase.run host w = (some (.error e, s), w) := by
  cases removed : w.files.removeFile host.cwd s.dataFile with
  | ok t => exact .inl ⟨t, .inl removed, run_erase_of_cleared (.inl removed)⟩
  | error fault =>
    by_cases missing : fault = .notFound
    · subst missing
      exact .inl ⟨w.files, .inr ⟨removed, rfl⟩, run_erase_of_cleared (.inr ⟨removed, rfl⟩)⟩
    · exact .inr ⟨_, run_erase_of_error removed missing⟩

theorem run_collect_of_read {content : ByteArray}
    (h : w.files.read host.cwd s.dataFile = .ok content) :
    s.collect.run host w = (some (.ok (some (.ofContent s.dataFile content)),
      { s with dataset := some (.ofContent s.dataFile content) }), w) := by
  change (Program.ask (.readFile s.dataFile) _).run host w = _
  simp only [Program.run, Host.answer, h]
  rfl

theorem run_collect_of_missing (h : w.files.read host.cwd s.dataFile = .error .notFound) :
    s.collect.run host w = (some (.ok none, { s with dataset := none }), w) := by
  change (Program.ask (.readFile s.dataFile) _).run host w = _
  simp only [Program.run, Host.answer, h]
  rfl

theorem run_collect_of_error {fault : Files.Fault}
    (h : w.files.read host.cwd s.dataFile = .error fault) (other : fault ≠ .notFound) :
    s.collect.run host w = (some (.error (.io fault), s), w) := by
  change (Program.ask (.readFile s.dataFile) _).run host w = _
  simp only [Program.run, Host.answer, h, Program.bind]
  split
  · next eq => cases eq
  · next eq => exact absurd (Except.error.inj eq) other
  · next eq =>
    cases eq
    rfl

/-- Collecting reads the data file, finds it missing, or fails. It changes no file. -/
theorem run_collect_cases (host : Host) (s : CoverageState) (w : World) :
    (∃ content, w.files.read host.cwd s.dataFile = .ok content ∧ s.collect.run host w =
      (some (.ok (some (.ofContent s.dataFile content)),
        { s with dataset := some (.ofContent s.dataFile content) }), w)) ∨
    (w.files.read host.cwd s.dataFile = .error .notFound ∧
      s.collect.run host w = (some (.ok none, { s with dataset := none }), w)) ∨
    ∃ fault, w.files.read host.cwd s.dataFile = .error fault ∧
      s.collect.run host w = (some (.error (.io fault), s), w) := by
  cases read : w.files.read host.cwd s.dataFile with
  | ok content => exact .inl ⟨content, rfl, run_collect_of_read read⟩
  | error fault =>
    by_cases missing : fault = .notFound
    · subst missing
      exact .inr (.inl ⟨rfl, run_collect_of_missing read⟩)
    · exact .inr (.inr ⟨fault, rfl, run_collect_of_error read missing⟩)

theorem eq_of_erased (run : s.erase.run host w = (some (.ok (), s'), w')) :
    s' = { s with erased := true, dataset := none } := by
  rcases run_erase_cases host s w with ⟨t, -, ran⟩ | ⟨e, ran⟩
  · rw [ran] at run
    cases run
    rfl
  · rw [ran] at run
    cases run

theorem eq_of_notErased {e : PipelineError}
    (run : s.erase.run host w = (some (.error e, s'), w')) : s' = s := by
  rcases run_erase_cases host s w with ⟨t, -, ran⟩ | ⟨e, ran⟩
  · rw [ran] at run
    cases run
  · rw [ran] at run
    cases run
    rfl

theorem eq_of_collected {d : Option CoverageDataset}
    (run : s.collect.run host w = (some (.ok d, s'), w')) : s' = { s with dataset := d } := by
  rcases run_collect_cases host s w with ⟨content, -, ran⟩ | ⟨-, ran⟩ | ⟨fault, -, ran⟩
  · rw [ran] at run
    cases run
    rfl
  · rw [ran] at run
    cases run
    rfl
  · rw [ran] at run
    cases run

theorem eq_of_notCollected {e : PipelineError}
    (run : s.collect.run host w = (some (.error e, s'), w')) : s' = s := by
  rcases run_collect_cases host s w with ⟨content, -, ran⟩ | ⟨-, ran⟩ | ⟨fault, -, ran⟩
  · rw [ran] at run
    cases run
  · rw [ran] at run
    cases run
  · rw [ran] at run
    cases run
    rfl

/-! ## Any number of operations -/

variable {start : CoverageState × World} {told : List Answer}

/-- What is known is what the operations told. -/
theorem Leads.state_eq (h : Leads host start told s w) (fresh : start.1.erased = false)
    (empty : start.1.dataset = none) :
    s = { start.1 with erased := decide (.erased ∈ told), dataset := latest told } := by
  induction h with
  | start => simp [latest, ← fresh, ← empty]
  | erased before run ih =>
    rw [eq_of_erased run, ih]
    simp [latest]
  | notErased before run ih => rw [eq_of_notErased run, ih]
  | collected before run ih =>
    rw [eq_of_collected run, ih]
    simp [latest]
  | notCollected before run ih => rw [eq_of_notCollected run, ih]
  | elsewhere before w' ih => exact ih

theorem Leads.erased_of_erased (h : Leads host start told s w) (erased : start.1.erased = true) :
    s.erased = true := by
  induction h with
  | start => exact erased
  | erased before run ih => rw [eq_of_erased run]
  | notErased before run ih => rw [eq_of_notErased run, ih]
  | collected before run ih => rw [eq_of_collected run, ih]
  | notCollected before run ih => rw [eq_of_notCollected run, ih]
  | elsewhere before w' ih => exact ih

/-- Whatever has happened to a job's coverage data, what is known of it is what the operations told
that succeeded. The next time it is erased, either nothing is at its place afterwards, or the
operation failed and nothing has changed; the next time it is collected, no file changes, and the
answer and what is known are those of the content that is there then. -/
theorem tells_what_was_found (host : Host) (file : Path) (package : Option String)
    (includeTests : Bool) (w₀ w : World) (told : List Answer) (s : CoverageState)
    (history : Leads host (⟨file, package, includeTests, false, none⟩, w₀) told s w) :
    s = ⟨file, package, includeTests, decide (.erased ∈ told), latest told⟩ ∧
    (∀ more s' w', Leads host (s, w) more s' w' → s.erased = true → s'.erased = true) ∧
    (∃ r s' w', s.erase.run host w = (some (r, s'), w') ∧
      (∀ e, r = .error e → s' = s ∧ w' = w) ∧
      (r = .ok () → w'.files.isPresent host.cwd file = false ∧
        s' = { s with erased := true, dataset := none })) ∧
    ∃ r s', s.collect.run host w = (some (r, s'), w) ∧ (∀ e, r = .error e → s' = s) ∧
      ∀ d, r = .ok d → s' = { s with dataset := d } ∧
        (d = none ↔ w.files.isPresent host.cwd file = false) ∧
        ∀ x, d = some x → ∃ content, w.files.read host.cwd file = .ok content ∧
          x = ⟨file, content.size, Sha256.hexDigest content.toList⟩ := by
  have known := history.state_eq rfl rfl
  have place : s.dataFile = file := by rw [known]
  refine ⟨known, fun more s' w' later => later.erased_of_erased, ?_, ?_⟩
  · rcases run_erase_cases host s w with ⟨t, cleared, ran⟩ | ⟨e, ran⟩
    · refine ⟨_, _, _, ran, ?_, ?_⟩
      · intro e failed
        cases failed
      · intro _
        rw [← place]
        exact ⟨cleared.isPresent_eq_false, rfl⟩
    · exact ⟨_, _, _, ran, fun _ _ => ⟨rfl, rfl⟩, nofun⟩
  · rcases run_collect_cases host s w with ⟨content, read, ran⟩ | ⟨missing, ran⟩ | ⟨fault, -, ran⟩
    · refine ⟨_, _, ran, ?_, ?_⟩
      · intro e failed
        cases failed
      · intro d succeeded
        cases succeeded
        rw [place] at read ⊢
        have present := Files.Tree.isPresent_of_read read
        refine ⟨rfl, by simp [present], ?_⟩
        intro x found
        cases found
        exact ⟨content, read, rfl⟩
    · refine ⟨_, _, ran, ?_, ?_⟩
      · intro e failed
        cases failed
      · intro d succeeded
        cases succeeded
        rw [place] at missing
        have absent := Files.Tree.isPresent_of_missing missing
        refine ⟨rfl, by simp [absent], ?_⟩
        intro x found
        cases found
    · exact ⟨_, _, ran, fun _ _ => rfl, nofun⟩

/-- Data that is collected and then gives way to a directory, which cannot be erased. When the
directory is gone, nothing is found. -/
theorem tells_what_was_found_replaced :
    let host : Host :=
      ⟨[], fun _ w => ⟨none, w.files⟩, fun _ _ => .ok (), fun _ _ => .ok .empty⟩
    let data : CoverageDataset := .ofContent ⟨"/data"⟩ "lines".toUTF8
    ∃ s, Leads host (⟨⟨"/data"⟩, none, true, false, none⟩, ⟨⟨[]⟩, []⟩)
        [.erased, .collected (some data)] s ⟨⟨[]⟩, []⟩ ∧
      s.erased = true ∧ s.dataset = some data ∧
      s.collect.run host ⟨⟨[]⟩, []⟩ = (some (.ok none, { s with dataset := none }), ⟨⟨[]⟩, []⟩) := by
  intro host data
  let start : CoverageState × World := (⟨⟨"/data"⟩, none, true, false, none⟩, ⟨⟨[]⟩, []⟩)
  let written : World := ⟨⟨[(["data"], .file "lines".toUTF8 false)]⟩, []⟩
  let replaced : World := ⟨⟨[(["data"], .directory)]⟩, []⟩
  let s : CoverageState := ⟨⟨"/data"⟩, none, true, true, some data⟩
  have nothing : start.2.files.removeFile [] ⟨"/data"⟩ = .error .notFound := by
    rw [Files.Tree.removeFile_of_locate (l := ["data"]) (by rfl)]
    rfl
  have directory : replaced.files.removeFile [] ⟨"/data"⟩ = .error .isDirectory := by
    rw [Files.Tree.removeFile_of_locate (l := ["data"]) (by rfl)]
    rfl
  have cleared : Leads host start [.erased] ⟨⟨"/data"⟩, none, true, true, none⟩ start.2 :=
    .erased .start (run_erase_of_cleared (.inr ⟨nothing, rfl⟩))
  have read : Leads host start [.erased, .collected (some data)] s written :=
    (cleared.elsewhere written).collected (by rfl)
  have kept : Leads host start [.erased, .collected (some data)] s replaced :=
    (read.elsewhere replaced).notErased (run_erase_of_error directory (by decide))
  have history := kept.elsewhere ⟨⟨[]⟩, []⟩
  obtain ⟨-, -, -, r, s', ran, -, answer⟩ := tells_what_was_found _ _ _ _ _ _ _ _ history
  have nowhere : (⟨[]⟩ : Files.Tree).read [] ⟨"/data"⟩ = .error .notFound := by rfl
  have finds : s.collect.run host ⟨⟨[]⟩, []⟩ =
      (some (.ok none, { s with dataset := none }), ⟨⟨[]⟩, []⟩) := run_collect_of_missing nowhere
  cases finds.symm.trans ran
  refine ⟨s, history, rfl, rfl, ?_⟩
  rw [← (answer none rfl).1]
  exact ran

end CoverageState
end CoverageMatrix
