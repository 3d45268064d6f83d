import CoverageMatrix.Config.File
import CoverageMatrix.Proofs.Config.Form
import CoverageMatrix.Proofs.Toml.Documents

/-! The pipeline file of a configuration: which can be written, and what is read from it. -/
namespace CoverageMatrix

open Toml (Storable Flat Orderly StandsIn depthLimit)

/-! ## Sections as tables -/

theorem Data.texts_storable (depth : Nat) (values : List String) :
    Storable (depth + 1) (.texts values) := by
  refine .list fun d mem => ?_
  obtain ⟨s, -, rfl⟩ := List.mem_map.1 mem
  exact .text s

theorem Data.mem_entryIf {α : Type} {name : String} {form : α → Data} {o : Option α}
    {e : String × Data} (mem : e ∈ Data.entryIf name form o) : ∃ a, e = (name, form a) := by
  cases o with
  | none => cases mem
  | some a => exact ⟨a, List.mem_singleton.1 mem⟩

theorem EnvVars.flat (vars : EnvVars) : Flat vars.toData.entries := by
  refine ⟨?_, fun e mem => ?_⟩
  · rw [toData, Data.entries, List.map_map]
    refine List.pairwise_map.2 (vars.sorted.imp fun {a b} less => ?_)
    rintro (same : a.1 = b.1)
    exact Std.lt_irrefl (a := b.1) (same ▸ less)
  · obtain ⟨v, -, rfl⟩ := List.mem_map.1 mem
    exact .text v.2

theorem InstallAction.flat (a : InstallAction) : Flat a.toData.entries := by
  refine ⟨List.Nodup.sublist a.keys_entries (by decide), fun e mem => ?_⟩
  simp only [toData, Data.entries, List.mem_append, List.mem_singleton] at mem
  rcases mem with (rfl | mem) | mem
  · exact .text _
  · obtain ⟨s, rfl⟩ := Data.mem_entryIf mem
    exact .text s
  · obtain ⟨p, rfl⟩ := Data.mem_entryIf mem
    exact .text p.text

namespace Config

theorem Reporter.flat (c : Reporter) (small : (c.timeoutSecs : Int) ≤ Data.maxInt64) :
    Flat c.toData.entries := by
  refine ⟨List.Nodup.sublist c.keys_entries (by decide), fun e mem => ?_⟩
  simp only [toData, Data.entries, List.mem_append, List.mem_cons, List.not_mem_nil, or_false]
    at mem
  rcases mem with ((mem | rfl | rfl) | mem) | rfl | rfl
  · obtain ⟨s, rfl⟩ := Data.mem_entryIf mem
    exact .text s
  · exact .text _
  · exact .text _
  · obtain ⟨p, rfl⟩ := Data.mem_entryIf mem
    exact .text p.text
  · exact .text _
  · exact .natural small

theorem Matrix.flat (c : Matrix) (small : (c.parallelism : Int) ≤ Data.maxInt64) :
    Flat c.toData.entries := by
  refine ⟨by simp [toData, Data.entries], fun e mem => ?_⟩
  simp only [toData, Data.entries, List.mem_cons, List.not_mem_nil, or_false] at mem
  rcases mem with rfl | rfl | rfl
  · exact .text _
  · exact Data.texts_storable 78 c.versions
  · exact .natural small

theorem SystemInstaller.flat (c : SystemInstaller) : Flat c.toData.entries := by
  refine ⟨by simp [toData, Data.entries], fun e mem => ?_⟩
  simp only [toData, Data.entries, List.mem_cons, List.not_mem_nil, or_false] at mem
  rcases mem with rfl | rfl
  · exact Data.texts_storable 78 c.command
  · exact Data.texts_storable 78 c.refresh

theorem LanguageInstaller.flat (c : LanguageInstaller) : Flat c.toData.entries := by
  refine ⟨by simp [toData, Data.entries], fun e mem => ?_⟩
  obtain rfl := List.mem_singleton.1 mem
  exact Data.texts_storable 78 c.command

theorem Tests.flat (c : Tests) (small : (c.timeoutSecs : Int) ≤ Data.maxInt64) :
    Flat c.toData.entries := by
  refine ⟨List.Nodup.sublist c.keys_entries (by decide), fun e mem => ?_⟩
  simp only [toData, Data.entries, List.mem_append, List.mem_cons, List.not_mem_nil, or_false]
    at mem
  rcases mem with (rfl | mem) | rfl | rfl | rfl | rfl | rfl
  · exact Data.texts_storable 78 c.command
  · obtain ⟨s, rfl⟩ := Data.mem_entryIf mem
    exact .text s
  · exact .bool _
  · exact .text _
  · exact .text _
  · exact .text _
  · exact .natural small

theorem Export.flat (c : Export) : Flat c.toData.entries := by
  refine ⟨by simp [toData, Data.entries], fun e mem => ?_⟩
  simp only [toData, Data.entries, List.mem_cons, List.not_mem_nil, or_false] at mem
  rcases mem with rfl | rfl
  · exact Data.texts_storable 78 c.command
  · exact .text _

theorem Installers.orderly (c : Installers) : Orderly 2 c.toData.entries := by
  refine .table (by simp [toData, Data.entries]) (fun e mem plain => ?_)
      (fun e mem t stands => ?_) <;>
    simp only [toData, Data.entries, List.mem_cons, List.not_mem_nil, or_false] at mem <;>
    rcases mem with rfl | rfl
  · cases plain
  · cases plain
  · cases stands
    exact c.system.flat.orderly 0
  · cases stands
    exact c.language.flat.orderly 0

theorem Installers.arranged (c : Installers) :
    Toml.arranged c.toData.entries = c.toData.entries := by
  have system : (Toml.placed c.system.toData).toData = c.system.toData :=
    (Toml.toData_placed_table _).trans (congrArg Data.table c.system.flat.arranged)
  have language : (Toml.placed c.language.toData).toData = c.language.toData :=
    (Toml.toData_placed_table _).trans (congrArg Data.table c.language.flat.arranged)
  -- both sections stay in their places, and each is flat
  change [("system", (Toml.placed c.system.toData).toData),
    ("language", (Toml.placed c.language.toData).toData)] = _
  rw [system, language]
  rfl

/-! ## The whole -/

theorem orderly {c : Config} (small : c.NumbersFit) : Orderly 3 c.toData.entries := by
  refine .table (by simp [toData, Data.entries]) (fun e mem plain => ?_)
      (fun e mem t stands => ?_) <;>
    simp only [toData, Data.entries, List.mem_cons, List.not_mem_nil, or_false] at mem <;>
    rcases mem with rfl | rfl | rfl | rfl | rfl | rfl | rfl | rfl
  · exact .text c.workdir.text
  · cases plain
  · cases plain
  · cases plain
  · -- only an empty list is no section
    have none : c.dependencies = [] := by
      simpa [Toml.isSection, Toml.isTable, InstallAction.toData] using plain
    rw [none]
    exact .list fun d mem => absurd mem List.not_mem_nil
  · cases plain
  · cases plain
  · cases plain
  · cases stands
  · cases stands
    exact c.env.flat.orderly 1
  · cases stands
    exact (c.reporter.flat small.helperTimeout).orderly 1
  · cases stands
    exact (c.matrix.flat small.parallelism).orderly 1
  · cases stands with
    | item _ mem =>
      obtain ⟨a, -, same⟩ := List.mem_map.1 mem
      cases same
      exact a.flat.orderly 1
  · cases stands
    exact c.installers.orderly
  · cases stands
    exact (c.tests.flat small.testTimeout).orderly 1
  · cases stands
    exact c.exports.flat.orderly 1

theorem arranged_perm {c : Config} (small : c.NumbersFit) :
    (Toml.arranged c.toData.entries).Perm c.toData.entries := by
  have table {es : List (String × Data)} (flat : Toml.arranged es = es) :
      (Toml.placed (.table es)).toData = .table es := by
    rw [Toml.toData_placed_table, flat]
  refine Toml.arranged_perm fun e mem headed => ?_
  simp only [toData, Data.entries, List.mem_cons, List.not_mem_nil, or_false] at mem
  rcases mem with rfl | rfl | rfl | rfl | rfl | rfl | rfl | rfl
  · cases headed
  · exact table c.env.flat.arranged
  · exact table (c.reporter.flat small.helperTimeout).arranged
  · exact table (c.matrix.flat small.parallelism).arranged
  · refine Toml.toData_placed_list fun d mem => ?_
    obtain ⟨a, -, rfl⟩ := List.mem_map.1 mem
    exact ⟨a.toData.entries, rfl, a.flat.arranged⟩
  · exact table c.installers.arranged
  · exact table (c.tests.flat small.testTimeout).arranged
  · exact table c.exports.flat.arranged

/-- The file of a configuration whose numbers fit, and what is read from it. -/
theorem exists_file {c : Config} (small : c.NumbersFit) :
    ∃ text d, c.toToml = .ok text ∧ Toml.parse? text = some d ∧
      decode .toml (Fragment.ofData d) = .ok c := by
  obtain ⟨text, written, read⟩ := Toml.parse?_document? ((orderly small).mono (by decide))
  refine ⟨text, _, ?_, read, decode_of_perm .toml small.inRange (arranged_perm small)⟩
  rw [toToml, show c.toData = .table c.toData.entries from rfl, written]

theorem numbersFit_of_toToml {c : Config} {text : String} (h : c.toToml = .ok text) :
    c.NumbersFit := by
  have written : Toml.document? (.table c.toData.entries) = some text := by
    rw [toToml] at h
    split at h
    · next same => exact same.trans (congrArg some (Except.ok.inj h))
    · cases h
  refine ⟨?_, ?_, ?_⟩
  · refine Toml.le_of_document? written "matrix" "parallelism" (t := c.matrix.toData.entries) ?_ ?_
    · simp [toData, Data.entries, Matrix.toData]
    · simp [Matrix.toData, Data.entries]
  · refine Toml.le_of_document? written "reporter" "timeout_secs"
      (t := c.reporter.toData.entries) ?_ ?_
    · simp [toData, Data.entries, Reporter.toData]
    · simp [Reporter.toData, Data.entries]
  · refine Toml.le_of_document? written "tests" "timeout_secs" (t := c.tests.toData.entries) ?_ ?_
    · simp [toData, Data.entries, Tests.toData]
    · simp [Tests.toData, Data.entries]

end Config
end CoverageMatrix
