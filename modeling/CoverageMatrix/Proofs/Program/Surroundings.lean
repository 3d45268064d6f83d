import CoverageMatrix.Proofs.Files.Agreement
import CoverageMatrix.Proofs.Program.Runs

/-!
# Worlds that hold the same

A host that goes by the files alone answers alike in worlds with the same files and the same
journal, and leaves such worlds behind (`Host.GoesByFiles.answer`). So a program runs alike in them.
-/
namespace CoverageMatrix

open Files.Tree (AgreeOn AgreeAfter)

/-- Two worlds hold the same files and have the same journal. -/
structure World.Same (w v : World) : Prop where
  files : w.files.Same v.files
  journal : w.journal = v.journal

/-- The answers and effects of a host's commands, the answers of its service and what its downloads
bring are those of the call and the files at that time. -/
structure Host.GoesByFiles (host : Host) : Prop where
  command : ∀ (i : Invocation) (w v : World), w.files.Same v.files →
    (host.command i w).outcome = (host.command i v).outcome ∧
      (host.command i w).files.Same (host.command i v).files
  service : ∀ (call : SessionCall) (w v : World), w.files.Same v.files →
    host.service call w = host.service call v
  download : ∀ (url : String) (w v : World), w.files.Same v.files →
    host.download url w = host.download url v

variable {host : Host} {w v : World}

theorem World.changed_congr {S : Files.Location → Prop} {r r' : Except Files.Fault Files.Tree}
    (before : w.files.AgreeOn S v.files) (after : AgreeAfter S r r') :
    (w.changed r).1 = (v.changed r').1 ∧
      (w.changed r).2.files.AgreeOn S (v.changed r').2.files := by
  cases r with
  | error fault =>
    cases r' with
    | error fault' => exact ⟨congrArg Except.error after, before⟩
    | ok u => exact after.elim
  | ok t =>
    cases r' with
    | error fault' => exact after.elim
    | ok u => exact ⟨rfl, after⟩

@[simp] theorem World.journal_changed (w : World) (r : Except Files.Fault Files.Tree) :
    (w.changed r).2.journal = w.journal := by
  cases r <;> rfl

theorem World.Same.changed {r r' : Except Files.Fault Files.Tree} (h : w.Same v)
    (after : AgreeAfter (fun _ => True) r r') :
    (w.changed r).1 = (v.changed r').1 ∧ (w.changed r).2.Same (v.changed r').2 := by
  obtain ⟨same, files⟩ := changed_congr h.files after
  refine ⟨same, files, ?_⟩
  rw [journal_changed, journal_changed, h.journal]

theorem Host.GoesByFiles.answer (goes : host.GoesByFiles) (r : Request) (w v : World)
    (h : w.Same v) :
    (host.answer w r).1 = (host.answer v r).1 ∧ (host.answer w r).2.Same (host.answer v r).2 := by
  cases r with
  | command i =>
    obtain ⟨outcome, files⟩ := goes.command i w v h.files
    exact ⟨outcome, files, congrArg (· ++ [Note.command i]) h.journal⟩
  | service call => exact ⟨congrArg some (goes.service call w v h.files), h⟩
  | download url => exact ⟨congrArg some (goes.download url w v h.files), h⟩
  | note n => exact ⟨rfl, h.files, congrArg (· ++ [n]) h.journal⟩
  | wasAcquired job => exact ⟨congrArg (fun j : List Note => some (j.contains _)) h.journal, h⟩
  | readFile p => exact ⟨congrArg some (Files.Tree.read_congr h.files (Files.covers_all _ p)), h⟩
  | isPresent p =>
    exact ⟨congrArg some (Files.Tree.isPresent_congr h.files (Files.covers_all _ p)), h⟩
  | removeFile p =>
    obtain ⟨same, after⟩ :=
      h.changed (Files.Tree.removeFile_congr h.files (Files.covers_all host.cwd p))
    exact ⟨congrArg some same, after⟩
  | copyFile source target =>
    obtain ⟨same, after⟩ := h.changed (Files.Tree.Same.copy h.files host.cwd source target)
    exact ⟨congrArg some same, after⟩
  | writeFile p content =>
    obtain ⟨same, after⟩ := h.changed (Files.Tree.Same.write h.files host.cwd p content)
    exact ⟨congrArg some same, after⟩
  | makeExecutable p =>
    obtain ⟨same, after⟩ := h.changed (Files.Tree.Same.setExecutable h.files host.cwd p true)
    exact ⟨congrArg some same, after⟩

theorem Host.GoesByFiles.runsAlike {α : Type} (goes : host.GoesByFiles) (p : Program α) :
    p.RunsAlike host World.Same fun _ => World.Same := by
  have all : p.Asks host fun _ => True := (Program.obeys_true p).asks
  exact (all.mono fun r _ => goes.answer r).runsAlike

end CoverageMatrix
