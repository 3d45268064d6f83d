import CoverageMatrix.Proofs.Config.Form
import CoverageMatrix.Proofs.Toml.Bounds
import CoverageMatrix.Config.File

/-! The numbers of a configuration that was read from a file fit into a file. -/
namespace CoverageMatrix.Config

open Decode (Dialect Shows record_shows getD_all natural_le)

/-- A number that a file can hold. -/
abbrev Small (n : Nat) : Prop := (n : Int) ≤ Data.maxInt64

section
variable {dialect : Dialect} {x : Fragment} (shows : Shows x)
include shows

theorem Reporter.small_of_decode {c : Reporter} (h : Reporter.decode dialect x = .ok c) :
    Small c.timeoutSecs := by
  obtain ⟨r, read, h⟩ := ok_of_bind h
  have parts := record_shows shows read
  obtain ⟨_, -, h⟩ := ok_of_bind h
  obtain ⟨_, -, h⟩ := ok_of_bind h
  obtain ⟨_, -, h⟩ := ok_of_bind h
  obtain ⟨_, -, h⟩ := ok_of_bind h
  obtain ⟨_, -, h⟩ := ok_of_bind h
  obtain ⟨timeout, found, h⟩ := ok_of_bind h
  cases h
  exact getD_all (P := Small) found parts (by decide) fun _ shows read => natural_le shows read

theorem Matrix.small_of_decode {c : Matrix} (h : Matrix.decode dialect x = .ok c) :
    Small c.parallelism := by
  obtain ⟨r, read, h⟩ := ok_of_bind h
  have parts := record_shows shows read
  obtain ⟨_, -, h⟩ := ok_of_bind h
  obtain ⟨_, -, h⟩ := ok_of_bind h
  obtain ⟨parallelism, found, h⟩ := ok_of_bind h
  cases h
  exact getD_all (P := Small) found parts (by decide) fun _ shows read => natural_le shows read

theorem Tests.small_of_decode {c : Tests} (h : Tests.decode dialect x = .ok c) :
    Small c.timeoutSecs := by
  obtain ⟨r, read, h⟩ := ok_of_bind h
  have parts := record_shows shows read
  obtain ⟨_, -, h⟩ := ok_of_bind h
  obtain ⟨_, -, h⟩ := ok_of_bind h
  obtain ⟨_, -, h⟩ := ok_of_bind h
  obtain ⟨_, -, h⟩ := ok_of_bind h
  obtain ⟨_, -, h⟩ := ok_of_bind h
  obtain ⟨_, -, h⟩ := ok_of_bind h
  obtain ⟨timeout, found, h⟩ := ok_of_bind h
  cases h
  exact getD_all (P := Small) found parts (by decide) fun _ shows read => natural_le shows read

theorem numbersFit_of_decode {c : Config} (h : decode dialect x = .ok c) : c.NumbersFit := by
  obtain ⟨r, read, h⟩ := ok_of_bind h
  have parts := record_shows shows read
  obtain ⟨_, -, h⟩ := ok_of_bind h
  obtain ⟨_, -, h⟩ := ok_of_bind h
  obtain ⟨reporter, foundReporter, h⟩ := ok_of_bind h
  obtain ⟨matrix, foundMatrix, h⟩ := ok_of_bind h
  obtain ⟨_, -, h⟩ := ok_of_bind h
  obtain ⟨_, -, h⟩ := ok_of_bind h
  obtain ⟨tests, foundTests, h⟩ := ok_of_bind h
  obtain ⟨_, -, h⟩ := ok_of_bind h
  cases h
  refine ⟨?_, ?_, ?_⟩
  · exact getD_all (P := fun m : Matrix => Small m.parallelism) foundMatrix parts (by decide)
      fun _ shows read => Matrix.small_of_decode shows read
  · exact getD_all (P := fun c : Reporter => Small c.timeoutSecs) foundReporter parts (by decide)
      fun _ shows read => Reporter.small_of_decode shows read
  · exact getD_all (P := fun c : Tests => Small c.timeoutSecs) foundTests parts (by decide)
      fun _ shows read => Tests.small_of_decode shows read

end

/-- What a file has to hold for a configuration to be read from it. -/
theorem ofToml_eq_ok {text : String} {c : Config} (h : ofToml text = .ok c) :
    ∃ d, Toml.parse? text = some d ∧ decode .toml (.ofData d) = .ok c ∧ c.validate = .ok () := by
  rw [ofToml, ofFileText] at h
  split at h
  · cases h
  · next d parsed =>
    split at h
    · cases h
    · next c' decoded =>
      obtain ⟨_, valid, h⟩ := ok_of_bind h
      cases h
      exact ⟨d, parsed, decoded, valid⟩

/-- Whatever is read from a file can be written to one. -/
theorem numbersFit_of_ofToml {text : String} {c : Config} (h : ofToml text = .ok c) :
    c.NumbersFit := by
  obtain ⟨d, parsed, decoded, -⟩ := ofToml_eq_ok h
  exact numbersFit_of_decode ⟨d, Toml.parse?_bounded parsed, rfl⟩ decoded

end CoverageMatrix.Config
