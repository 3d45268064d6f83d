import CoverageMatrix.Proofs.Config.Form
import CoverageMatrix.Proofs.Data.Nesting

/-! The document form of a configuration is data that a document carries without loss. -/
namespace CoverageMatrix

/-! ## Parts -/

namespace Data

@[simp] theorem isExact_entryIf {α : Type} {depth : Nat} {name : String} {form : α → Data}
    {o : Option α} :
    (∀ e ∈ entryIf name form o, e.2.IsExact depth) ↔ ∀ a ∈ o, (form a).IsExact depth := by
  cases o <;> simp [entryIf]

@[simp] theorem isExact_texts (depth : Nat) (l : List String) : (texts l).IsExact (depth + 1) := by
  simp [texts]

end Data

@[simp] theorem Path.isExact_toData (depth : Nat) (p : Path) : p.toData.IsExact depth :=
  .text p.text

@[simp] theorem EnvVars.isExact_toData (depth : Nat) (vars : EnvVars) :
    vars.toData.IsExact (depth + 1) := by
  rw [toData, Data.isExact_table, List.forall_mem_map]
  exact fun _ _ => .text _

theorem InstallAction.isExact_toData (depth : Nat) (a : InstallAction) :
    a.toData.IsExact (depth + 1) := by
  simp only [toData, Data.isExact_table, List.forall_mem_append, List.forall_mem_cons,
    Data.isExact_entryIf]
  simp

/-! ## Sections -/

namespace Config

theorem Reporter.isExact_toData {c : Reporter} (small : (c.timeoutSecs : Int) ≤ Data.maxUInt64)
    (depth : Nat) : c.toData.IsExact (depth + 1) := by
  have timeout := Data.isExact_natural small depth
  simp only [toData, Data.isExact_table, List.forall_mem_append, List.forall_mem_cons,
    Data.isExact_entryIf]
  simp_all

theorem Matrix.isExact_toData {c : Matrix} (small : (c.parallelism : Int) ≤ Data.maxUInt64)
    (depth : Nat) : c.toData.IsExact (depth + 2) := by
  have parallelism := Data.isExact_natural small (depth + 1)
  simp_all [toData]

theorem Installers.isExact_toData (c : Installers) (depth : Nat) :
    c.toData.IsExact (depth + 3) := by
  simp [toData, SystemInstaller.toData, LanguageInstaller.toData]

theorem Tests.isExact_toData {c : Tests} (small : (c.timeoutSecs : Int) ≤ Data.maxUInt64)
    (depth : Nat) : c.toData.IsExact (depth + 2) := by
  have timeout := Data.isExact_natural small (depth + 1)
  simp only [toData, Data.isExact_table, List.forall_mem_append, List.forall_mem_cons,
    Data.isExact_entryIf]
  simp_all

theorem Export.isExact_toData (c : Export) (depth : Nat) : c.toData.IsExact (depth + 2) := by
  simp [toData]

/-! ## The whole -/

theorem isExact_toData {c : Config} (h : c.InRange) : c.toData.IsExact 4 := by
  have dependencies : ∀ a ∈ c.dependencies, a.toData.IsExact 2 := fun a _ => a.isExact_toData 1
  have reporter := Reporter.isExact_toData h.helperTimeout 2
  have matrix := Matrix.isExact_toData h.parallelism 1
  have installers := c.installers.isExact_toData 0
  have tests := Tests.isExact_toData h.testTimeout 1
  have exports := c.exports.isExact_toData 1
  simp_all [toData]

end Config
end CoverageMatrix
